import Roteiro.Proofs.Scope.Layers

/-!
The shapes of contexts, and what may become of them. What an expression or a statement does to the
world is described by a relation between the world before and the world after it, which is kept
under composition: an expression keeps all shapes (`World.SameShape`); statements change the shape
of their own context only (`World.At`), where they may mark the innermost frames. Statements of a
body may also add names of the current level (`Context.Grown`). Leaving the scope drops exactly
those, so that what runs in a scope of its own adds none (`Context.Settled`).
-/

namespace Roteiro

variable {α : Type}

/-! ### shapes -/

/-- Everything of a context but the values of its locals. -/
structure Shape where
  names : List (String × Nat)
  level : Nat
  loops : List LoopFrame
  calls : List (List Value)
  parent : Option ContextId

/-- The shape of a context. -/
def Context.shape (c : Context) : Shape :=
  ⟨c.names, c.level, c.loops, c.calls, c.parent⟩

/-- Two stacks that differ at most at the top, where they are related. -/
inductive OnTop (R : α → α → Prop) : List α → List α → Prop
  | nil : OnTop R [] []
  | cons {a b : α} (rest : List α) : R a b → OnTop R (a :: rest) (b :: rest)

theorem OnTop.refl {R : α → α → Prop} (hr : ∀ a, R a a) (s : List α) : OnTop R s s := by
  cases s with
  | nil => exact .nil
  | cons a rest => exact .cons rest (hr a)

theorem OnTop.trans {R : α → α → Prop} (ht : ∀ {a b c}, R a b → R b c → R a c) {s t u : List α}
    (h : OnTop R s t) (k : OnTop R t u) : OnTop R s u := by
  cases h with
  | nil => exact k
  | cons rest hab =>
    cases k with
    | cons _ hbc => exact .cons rest (ht hab hbc)

theorem OnTop.eq_nil {R : α → α → Prop} {s : List α} (h : OnTop R [] s) : s = [] := by
  cases h
  rfl

/-- The signals of a frame are still there in another. -/
def LoopFrame.Raised (f f' : LoopFrame) : Prop :=
  (f.broken → f'.broken) ∧ (f.continued → f'.continued)

namespace Context

/-- What statements do not undo: the level stays, and only the innermost frames are marked. -/
structure Carried (a b : Context) : Prop where
  level : b.level = a.level
  parent : b.parent = a.parent
  loops : OnTop LoopFrame.Raised a.loops b.loops
  calls : OnTop (· <+: ·) a.calls b.calls

/-- A context in which statements can run: some scope is open, and all names belong to open
scopes. -/
structure Ready (a : Context) : Prop where
  base : baseLevel ≤ a.level
  below : ∀ p ∈ a.names, p.2 ≤ a.level

/-- No name is added, as long as statements can run. -/
structure Settled (a b : Context) : Prop extends Carried a b where
  names : a.Ready → b.names = a.names

/-- Only names of the current level are added, as long as statements can run. -/
structure Grown (a b : Context) : Prop extends Carried a b where
  names : a.Ready → ∃ added, b.names = added ++ a.names ∧ ∀ p ∈ added, p.2 = a.level

/-- One name is added at the current level, or none. -/
structure Declared (name : Option String) (a b : Context) : Prop extends Carried a b where
  names : b.names = (name.map (·, a.level)).toList ++ a.names

/-- One name is added at the current level, or none, as long as statements can run. -/
structure Adds (name : Option String) (a b : Context) : Prop extends Carried a b where
  names : a.Ready → b.names = (name.map (·, a.level)).toList ++ a.names

theorem Carried.trans {a b c : Context} (h : Carried a b) (k : Carried b c) : Carried a c where
  level := k.level.trans h.level
  parent := k.parent.trans h.parent
  loops := h.loops.trans (fun h k => ⟨k.1 ∘ h.1, k.2 ∘ h.2⟩) k.loops
  calls := h.calls.trans (fun h k => h.trans k) k.calls

theorem Layered.ready {a : Context} (h : a.Layered) (hb : baseLevel ≤ a.level) : a.Ready :=
  ⟨hb, fun p hp => by have := h.below p hp; omega⟩

theorem Ready.enter {a : Context} (h : a.Ready) (free : a.full = false) : a.enter.Ready := by
  refine ⟨?_, fun p hp => ?_⟩
  · rw [level_enter free]
    exact Nat.le_succ_of_le h.base
  · rw [level_enter free]
    exact Nat.le_succ_of_le (h.below p hp)

theorem Ready.of_grown {a b : Context} (h : a.Ready) (k : Grown a b) : b.Ready := by
  obtain ⟨added, hn, hl⟩ := k.names h
  refine ⟨by rw [k.level]; exact h.base, fun p hp => ?_⟩
  rw [hn] at hp
  rw [k.level]
  rcases List.mem_append.1 hp with hp | hp
  · exact Nat.le_of_eq (hl p hp)
  · exact h.below p hp

/-- The newest name is below every scope that is entered later. -/
theorem Ready.dropWhile_names {a : Context} (h : a.Ready) {level : Nat} (above : a.level < level) :
    a.names.dropWhile (fun p => p.2 == level) = a.names := by
  cases names : a.names with
  | nil => rfl
  | cons p rest =>
    have := h.below p (by rw [names]; exact List.mem_cons_self)
    exact List.dropWhile_cons_of_neg (by simp; omega)

theorem Settled.grown {a b : Context} (h : Settled a b) : Grown a b :=
  ⟨h.toCarried, fun ready => ⟨[], h.names ready, by simp⟩⟩

theorem Settled.trans {a b c : Context} (h : Settled a b) (k : Settled b c) : Settled a c :=
  ⟨h.toCarried.trans k.toCarried, fun ready =>
    (k.names (ready.of_grown h.grown)).trans (h.names ready)⟩

theorem Settled.adds {a b : Context} (h : Settled a b) : Adds none a b := ⟨h.toCarried, h.names⟩

theorem Adds.declared {name : Option String} {a b : Context} (h : Adds name a b)
    (ready : a.Ready) : Declared name a b := ⟨h.toCarried, h.names ready⟩

theorem Adds.grown {name : Option String} {a b : Context} (h : Adds name a b) : Grown a b := by
  refine ⟨h.toCarried, fun ready => ⟨_, h.names ready, fun p hp => ?_⟩⟩
  cases name with
  | none => cases hp
  | some name =>
    rw [List.mem_singleton.1 hp]

theorem Settled.trans_adds {name : Option String} {a b c : Context} (h : Settled a b)
    (k : Adds name b c) : Adds name a c := by
  refine ⟨h.toCarried.trans k.toCarried, fun ready => ?_⟩
  rw [k.names (ready.of_grown h.grown), h.names ready, h.level]

theorem Grown.trans {a b c : Context} (h : Grown a b) (k : Grown b c) : Grown a c := by
  refine ⟨h.toCarried.trans k.toCarried, fun ready => ?_⟩
  obtain ⟨added, hn, hl⟩ := h.names ready
  obtain ⟨more, kn, kl⟩ := k.names (ready.of_grown h)
  refine ⟨more ++ added, by rw [kn, hn, List.append_assoc], fun p hp => ?_⟩
  rcases List.mem_append.1 hp with hp | hp
  · rw [kl p hp, h.level]
  · exact hl p hp

theorem Settled.of_shape {a b : Context} (h : b.shape = a.shape) : Settled a b := by
  obtain ⟨hn, hl, hloops, hcalls, hp⟩ := Shape.mk.inj h
  refine ⟨⟨hl, hp, ?_, ?_⟩, fun _ => hn⟩
  · rw [hloops]
    exact .refl (fun _ => ⟨id, id⟩) _
  · rw [hcalls]
    exact .refl (fun _ => List.prefix_refl _) _

/-! ### marks and definitions -/

theorem Adds.of_define {a b : Context} {name : String} {v : Value}
    (h : a.define name v = .ok b) : Adds (some name) a b := by
  rw [names_of_define h]
  exact ⟨⟨rfl, rfl, .refl (fun _ => ⟨id, id⟩) _, .refl (fun _ => List.prefix_refl _) _⟩,
    fun _ => rfl⟩

theorem Settled.of_signal {a b : Context} {f : LoopFrame → LoopFrame} (h : a.signal f = .ok b)
    (hf : ∀ x : LoopFrame, x.Raised (f x)) : Settled a b := by
  unfold signal at h
  split at h
  · next frame rest hl =>
    cases h
    refine ⟨⟨rfl, rfl, ?_, .refl (fun _ => List.prefix_refl _) _⟩, fun _ => rfl⟩
    rw [hl]
    exact .cons rest (hf frame)
  · cases h

theorem Settled.of_markBreak {a b : Context} (h : a.markBreak = .ok b) : Settled a b := by
  unfold markBreak at h
  exact of_signal h fun _ => ⟨fun _ => rfl, id⟩

theorem Settled.of_markContinue {a b : Context} (h : a.markContinue = .ok b) : Settled a b := by
  unfold markContinue at h
  exact of_signal h fun _ => ⟨id, fun _ => rfl⟩

theorem Settled.of_pushReturns {a b : Context} {values : List Value}
    (h : a.pushReturns values = .ok b) : Settled a b := by
  unfold pushReturns at h
  split at h
  · next returned rest hl =>
    cases h
    refine ⟨⟨rfl, rfl, .refl (fun _ => ⟨id, id⟩) _, ?_⟩, fun _ => rfl⟩
    rw [hl]
    exact .cons rest (List.prefix_append returned values)
  · cases h

/-! ### scopes and frames -/

/-- **Leaving a scope drops what was added in it.** -/
theorem Settled.leave {a b : Context} (free : a.full = false) (h : Grown a.enter b) :
    Settled a b.leave := by
  have level : b.level = a.level + 1 := h.level.trans (level_enter free)
  refine ⟨⟨?_, h.parent, h.loops, h.calls⟩, fun ready => ?_⟩
  · change b.level - 1 = a.level
    omega
  · obtain ⟨added, hn, hl⟩ := h.names (ready.enter free)
    have base := ready.base
    rw [names_leave, if_pos (by omega), hn, List.dropWhile_append_of_pos]
    · exact ready.dropWhile_names (by omega)
    · intro p hp
      rw [beq_iff_eq, hl p hp, level_enter free, level]

/-- Ending a round of a loop takes off the frame that was opened for it. -/
theorem Grown.popLoop {a b : Context} (h : Grown a.pushLoop b) :
    ∃ frame d, b.popLoop = .ok (frame, d) ∧ Grown a d := by
  obtain ⟨⟨hl, hp, hloops, hcalls⟩, hn⟩ := h
  change OnTop _ ({} :: a.loops) b.loops at hloops
  generalize hb : b.loops = loops at hloops
  cases hloops with
  | cons _ _ =>
    refine ⟨_, { b with loops := a.loops }, by unfold Context.popLoop; rw [hb], ?_⟩
    exact ⟨⟨hl, hp, .refl (fun _ => ⟨id, id⟩) _, hcalls⟩, fun ready => hn ⟨ready.base, ready.below⟩⟩

/-- Ending a call takes off the frame that was opened for it. -/
theorem Grown.popCall {a b : Context} (h : Grown a.pushCall b) :
    ∃ returned d, b.popCall = .ok (returned, d) ∧ Grown a d := by
  obtain ⟨⟨hl, hp, hloops, hcalls⟩, hn⟩ := h
  change OnTop _ ([] :: a.calls) b.calls at hcalls
  generalize hb : b.calls = calls at hcalls
  cases hcalls with
  | cons _ _ =>
    refine ⟨_, { b with calls := a.calls }, by unfold Context.popCall; rw [hb], ?_⟩
    exact ⟨⟨hl, hp, hloops, .refl (fun _ => List.prefix_refl _) _⟩,
      fun ready => hn ⟨ready.base, ready.below⟩⟩

theorem Grown.frameless {a b : Context} (h : Grown a b) (ha : a.loops = [] ∧ a.calls = []) :
    b.loops = [] ∧ b.calls = [] := by
  obtain ⟨⟨-, -, hloops, hcalls⟩, -⟩ := h
  rw [ha.1] at hloops
  rw [ha.2] at hcalls
  exact ⟨hloops.eq_nil, hcalls.eq_nil⟩

end Context

/-! ### worlds before and after -/

namespace World

/-- The contexts that were there have their shapes, and new ones have no open frames. -/
structure SameShape (w w' : World) : Prop where
  size : w.contexts.size ≤ w'.contexts.size
  shape : ∀ i < w.contexts.size, (w'.context i).shape = (w.context i).shape
  fresh : ∀ i, w.contexts.size ≤ i → (w'.context i).loops = [] ∧ (w'.context i).calls = []

/-- The context `c` has changed as `P` says; the others that were there have their shapes, and new
ones have no open frames. -/
structure At (c : ContextId) (P : Context → Context → Prop) (w w' : World) : Prop where
  live : c < w.contexts.size
  size : w.contexts.size ≤ w'.contexts.size
  others : ∀ i < w.contexts.size, i ≠ c → (w'.context i).shape = (w.context i).shape
  fresh : ∀ i, w.contexts.size ≤ i → (w'.context i).loops = [] ∧ (w'.context i).calls = []
  here : P (w.context c) (w'.context c)

theorem fresh_root {w : World} (i : ContextId) (hi : w.contexts.size ≤ i) :
    (w.context i).loops = [] ∧ (w.context i).calls = [] := by
  unfold context
  rw [Contexts.context_of_size_le hi]
  exact ⟨rfl, rfl⟩

theorem SameShape.of_contexts {w w' : World} (h : w'.contexts = w.contexts) : SameShape w w' := by
  have same : ∀ i, w'.context i = w.context i := fun i => by unfold context; rw [h]
  refine ⟨Nat.le_of_eq (by rw [h]), fun i _ => by rw [same], fun i hi => ?_⟩
  rw [same]
  exact fresh_root i hi

theorem SameShape.refl (w : World) : SameShape w w := .of_contexts rfl

/-- What is done to the contexts is done, or fails and changes nothing. -/
theorem onContexts_cases (f : Contexts → Except RuntimeFault Contexts) (w : World) :
    (∃ cs, f w.contexts = .ok cs ∧ onContexts f w = (.ok (), { w with contexts := cs })) ∨
    ∃ fault, f w.contexts = .error fault ∧ onContexts f w = (.error fault, w) := by
  unfold onContexts
  cases f w.contexts with
  | ok cs => exact .inl ⟨cs, rfl, rfl⟩
  | error fault => exact .inr ⟨fault, rfl, rfl⟩

theorem shape_write (cs : Contexts) (b : Binding) (v : Value) (i : ContextId) :
    ((cs.write b v).context i).shape = (cs.context i).shape := by
  refine Contexts.related_update (R := fun a b => b.shape = a.shape) (fun _ => rfl) ?_ i
  unfold Context.shape
  rw [Context.names_write, Context.write_eq]

/-- To overwrite the value of a name changes no shape. -/
theorem SameShape.assign (c : ContextId) (name : String) (v : Value) (w : World) :
    SameShape w (World.assign c name v w).2 := by
  unfold World.assign
  rcases onContexts_cases (fun cs => cs.assign c name v) w with ⟨cs, hcs, done⟩ | ⟨fault, -, failed⟩
  · rw [done]
    unfold Contexts.assign at hcs
    split at hcs
    · next b _ =>
      cases hcs
      refine ⟨Nat.le_of_eq (Contexts.size_update _).symm, fun i _ => shape_write _ b v i, ?_⟩
      intro i hi
      obtain ⟨-, -, hloops, hcalls, -⟩ := Shape.mk.inj (shape_write w.contexts b v i)
      change (Contexts.context _ i).loops = [] ∧ (Contexts.context _ i).calls = []
      rw [hloops, hcalls]
      exact fresh_root i hi
    · cases hcs
  · rw [failed]
    exact .refl w

/-- The last two clauses of both relations, under composition. -/
theorem fresh_trans {w w' w'' : World}
    (h : ∀ i, w.contexts.size ≤ i → (w'.context i).loops = [] ∧ (w'.context i).calls = [])
    (k : ∀ i, w.contexts.size ≤ i → i < w'.contexts.size →
      (w''.context i).shape = (w'.context i).shape)
    (kf : ∀ i, w'.contexts.size ≤ i → (w''.context i).loops = [] ∧ (w''.context i).calls = []) :
    ∀ i, w.contexts.size ≤ i → (w''.context i).loops = [] ∧ (w''.context i).calls = [] := by
  intro i hi
  by_cases hlt : i < w'.contexts.size
  · obtain ⟨-, -, hloops, hcalls, -⟩ := Shape.mk.inj (k i hi hlt)
    rw [hloops, hcalls]
    exact h i hi
  · exact kf i (Nat.not_lt.1 hlt)

theorem SameShape.trans {w w' w'' : World} (h : SameShape w w') (k : SameShape w' w'') :
    SameShape w w'' where
  size := Nat.le_trans h.size k.size
  shape i hi := (k.shape i (Nat.lt_of_lt_of_le hi h.size)).trans (h.shape i hi)
  fresh := fresh_trans h.fresh (fun i _ hlt => k.shape i hlt) k.fresh

namespace At

variable {c : ContextId} {P Q R : Context → Context → Prop} {w w' w'' : World}

theorem trans (h : At c P w w') (k : At c Q w' w'') (hr : R (w.context c) (w''.context c)) :
    At c R w w'' where
  live := h.live
  size := Nat.le_trans h.size k.size
  others i hi hne :=
    (k.others i (Nat.lt_of_lt_of_le hi h.size) hne).trans (h.others i hi hne)
  fresh := by
    refine fresh_trans h.fresh (fun i hi hlt => k.others i hlt ?_) k.fresh
    exact Nat.ne_of_gt (Nat.lt_of_lt_of_le h.live hi)
  here := hr

theorem mono (h : At c P w w') (hq : P (w.context c) (w'.context c) → Q (w.context c) (w'.context c)) :
    At c Q w w' :=
  ⟨h.live, h.size, h.others, h.fresh, hq h.here⟩

theorem of_shape (hc : c < w.contexts.size) (h : SameShape w w') : At c Context.Settled w w' :=
  ⟨hc, h.size, fun i hi _ => h.shape i hi, h.fresh, .of_shape (h.shape c hc)⟩

theorem set (hc : c < w.contexts.size) (d : Context) :
    At c (fun _ b => b = d) w { w with contexts := w.contexts.setIfInBounds c d } where
  live := hc
  size := Nat.le_of_eq Array.size_setIfInBounds.symm
  others i _ hne := congrArg Context.shape (Contexts.context_set_of_ne hne d)
  fresh i hi := by
    have hne : i ≠ c := Nat.ne_of_gt (Nat.lt_of_lt_of_le hc hi)
    change (Contexts.context _ i).loops = [] ∧ (Contexts.context _ i).calls = []
    rw [Contexts.context_set_of_ne hne]
    exact fresh_root i hi
  here := Contexts.context_set_self hc d

theorem update (hc : c < w.contexts.size) (f : Context → Context) :
    At c (fun a b => b = f a) w (w.update c f) := by
  unfold World.update
  rw [Contexts.update_eq_set]
  exact (set hc (f (w.context c))).mono id

theorem popLoop (hc : c < w.contexts.size) {frame : LoopFrame} {d : Context}
    (h : (w.context c).popLoop = .ok (frame, d)) :
    At c (fun _ b => b = d) w (w.popLoop c).2 := by
  unfold World.popLoop
  rw [h]
  exact set hc d

theorem popCall (hc : c < w.contexts.size) {returned : List Value} {d : Context}
    (h : (w.context c).popCall = .ok (returned, d)) :
    At c (fun _ b => b = d) w (w.popCall c).2 := by
  unfold World.popCall
  rw [h]
  exact set hc d

end At

/-- What statements in the context `c` do, if there is such a context. -/
def Under (c : ContextId) (P : Context → Context → Prop) (w w' : World) : Prop :=
  c < w.contexts.size → At c P w w'

/-- What is done to a context is done, or fails and changes nothing. -/
theorem onContext_cases (c : ContextId) (f : Context → Except RuntimeFault Context) (w : World) :
    (∃ d, f (w.context c) = .ok d ∧
      onContext c f w = (.ok (), { w with contexts := w.contexts.setIfInBounds c d })) ∨
    ∃ fault, f (w.context c) = .error fault ∧ onContext c f w = (.error fault, w) := by
  unfold onContext
  rcases onContexts_cases (fun cs => (f (cs.context c)).map fun d => cs.setIfInBounds c d) w with
    ⟨cs, hcs, done⟩ | ⟨fault, hfault, failed⟩
  · rw [done]
    rcases hd : f (w.contexts.context c) with fault | d
    · rw [hd] at hcs
      cases hcs
    · rw [hd] at hcs
      cases hcs
      exact .inl ⟨d, hd, rfl⟩
  · rw [failed]
    rcases hd : f (w.contexts.context c) with fault' | d
    · rw [hd] at hfault
      cases hfault
      exact .inr ⟨fault, hd, rfl⟩
    · rw [hd] at hfault
      cases hfault

theorem Under.onContext {c : ContextId} {f : Context → Except RuntimeFault Context}
    (hf : ∀ {a b}, f a = .ok b → Context.Settled a b) (w : World) :
    Under c Context.Settled w (onContext c f w).2 := by
  intro hc
  rcases onContext_cases c f w with ⟨d, hd, done⟩ | ⟨fault, -, failed⟩
  · rw [done]
    exact (At.set hc d).mono fun here => by rw [here]; exact hf hd
  · rw [failed]
    exact .of_shape hc (.refl w)

/-- To define a name adds it, or fails and changes nothing. -/
theorem define_cases {c : ContextId} {w : World} (hc : c < w.contexts.size) (name : String)
    (v : Value) :
    ((define c name v w).1 = .ok () ∧ At c (Context.Adds (some name)) w (define c name v w).2) ∨
    ∃ fault, define c name v w = (.error fault, w) := by
  have same : define c name v w = onContext c (·.define name v) w := rfl
  rw [same]
  rcases onContext_cases c (·.define name v) w with ⟨d, hd, done⟩ | ⟨fault, -, failed⟩
  · rw [done]
    exact .inl ⟨rfl, (At.set hc d).mono fun here => by rw [here]; exact .of_define hd⟩
  · exact .inr ⟨fault, failed⟩

theorem Under.define {c : ContextId} (name : String) (v : Value) (w : World) :
    Under c Context.Grown w (define c name v w).2 := by
  intro hc
  rcases define_cases hc name v with ⟨-, added⟩ | ⟨fault, failed⟩
  · exact added.mono Context.Adds.grown
  · rw [failed]
    exact (At.of_shape hc (.refl w)).mono Context.Settled.grown

/-- A relation between worlds that is kept under composition. -/
structure Composes (R : World → World → Prop) : Prop where
  refl : ∀ w, R w w
  trans : ∀ {w w' w''}, R w w' → R w' w'' → R w w''

theorem SameShape.composes : Composes SameShape := ⟨.refl, .trans⟩

theorem Under.composes (c : ContextId) {P : Context → Context → Prop}
    (hs : ∀ {a b}, Context.Settled a b → P a b) (ht : ∀ {a b d}, P a b → P b d → P a d) :
    Composes (Under c P) where
  refl w hc := (At.of_shape hc (.refl w)).mono hs
  trans h k hc := by
    have first := h hc
    have second := k (Nat.lt_of_lt_of_le hc first.size)
    exact first.trans second (ht first.here second.here)

theorem Under.settled (c : ContextId) : Composes (Under c Context.Settled) :=
  composes c id Context.Settled.trans

theorem Under.grown (c : ContextId) : Composes (Under c Context.Grown) :=
  composes c Context.Settled.grown Context.Grown.trans

theorem SameShape.under {c : ContextId} {w w' : World} (h : SameShape w w') :
    Under c Context.Settled w w' := fun hc => .of_shape hc h

theorem Under.toGrown {c : ContextId} {w w' : World} (h : Under c Context.Settled w w') :
    Under c Context.Grown w w' := fun hc => (h hc).mono Context.Settled.grown

/-- What runs in a scope of its own adds no name. -/
theorem Under.scope {c : ContextId} {w w' : World} (free : (w.context c).full = false)
    (h : Under c Context.Grown (w.enterScope c) w') : Under c Context.Settled w (w'.leaveScope c) := by
  intro hc
  have entered : At c (fun a b => b = a.enter) w (w.enterScope c) := .update hc _
  have hc' := Nat.lt_of_lt_of_le hc entered.size
  have ran := h hc'
  have left : At c (fun a b => b = a.leave) w' (w'.leaveScope c) :=
    .update (Nat.lt_of_lt_of_le hc' ran.size) _
  refine (entered.trans ran trivial : At c (fun _ _ => True) w w').trans left ?_
  have grown := ran.here
  rw [entered.here] at grown
  rw [left.here]
  exact .leave free grown

/-- A round of a loop adds no name, and its frame is taken off. -/
theorem Under.round {c : ContextId} {w w' : World} (free : (w.context c).full = false)
    (h : Under c Context.Grown ((w.enterScope c).update c Context.pushLoop) w') :
    Under c Context.Settled w ((w'.popLoop c).2.leaveScope c) := by
  -- Seen from inside the scope, opening the frame and closing it again is one step.
  suffices inside : Under c Context.Grown (w.enterScope c) (w'.popLoop c).2 from inside.scope free
  intro hc
  have opened : At c (fun a b => b = a.pushLoop) (w.enterScope c)
      ((w.enterScope c).update c Context.pushLoop) := .update hc _
  have hc' := Nat.lt_of_lt_of_le hc opened.size
  have ran := h hc'
  have grown := ran.here
  rw [opened.here] at grown
  obtain ⟨frame, d, popped, hd⟩ := grown.popLoop
  have closed := At.popLoop (Nat.lt_of_lt_of_le hc' ran.size) popped
  refine (opened.trans ran trivial : At c (fun _ _ => True) _ w').trans closed ?_
  rw [closed.here]
  exact hd

/-- A call runs in a context of its own, and what is left of that context has no open frames. -/
theorem SameShape.call {w w' : World} (parent : ContextId)
    (h : Under w.contexts.size Context.Grown
      ((w.newChild parent).2.update w.contexts.size Context.pushCall) w') :
    SameShape w (w'.popCall w.contexts.size).2 := by
  have made : ((w.newChild parent).2.context w.contexts.size) = .inside parent :=
    Contexts.context_push_self _
  have size : (w.newChild parent).2.contexts.size = w.contexts.size + 1 := Array.size_push _
  have opened : At w.contexts.size (fun a b => b = a.pushCall) (w.newChild parent).2 _ :=
    .update (Nat.lt_of_lt_of_eq (Nat.lt_succ_self _) size.symm) Context.pushCall
  have fresh := opened.here
  rw [made] at fresh
  have ran := h (Nat.lt_of_lt_of_le opened.live opened.size)
  have grown := ran.here
  rw [fresh] at grown
  obtain ⟨returned, d, popped, hd⟩ := grown.popCall
  have closed :=
    At.popCall (Nat.lt_of_lt_of_le (Nat.lt_of_lt_of_le opened.live opened.size) ran.size) popped
  have whole : At w.contexts.size (fun _ _ => True) _ _ :=
    (opened.trans ran trivial : At w.contexts.size (fun _ _ => True) _ w').trans closed trivial
  refine ⟨?_, fun i hi => ?_, fun i hi => ?_⟩
  · exact Nat.le_trans (Nat.le_of_lt whole.live) whole.size
  · have hne : i ≠ w.contexts.size := Nat.ne_of_lt hi
    rw [whole.others i (Nat.lt_trans hi whole.live) hne]
    exact congrArg Context.shape (Contexts.context_push_of_ne hne _)
  · by_cases heq : i = w.contexts.size
    · subst heq
      rw [closed.here]
      exact hd.frameless ⟨rfl, rfl⟩
    · refine whole.fresh i ?_
      rw [size]
      omega

end World

end Roteiro
