import Mathlib.Logic.Relation
import Roteiro.World.Library

/-!
The layers of a context. The names of a context that stand above the base level lie in layers, the
newest names on the highest level, and none is above the current level. Leaving a scope then drops
the names of that scope and no others. Everything that can be done to contexts keeps the layers
(`Contexts.Step.layered`), so every context that can be reached has them
(`Contexts.Reachable.layered`).
-/

namespace Roteiro

/-! ### contexts after a change -/

namespace Contexts

variable {cs : Contexts} {i j : ContextId}

theorem context_of_size_le (h : cs.size ≤ i) : cs.context i = .root := by
  unfold context
  rw [Array.getElem?_eq_none h]
  rfl

@[simp]
theorem size_update (f : Context → Context) : (cs.update i f).size = cs.size := by
  unfold update
  simp

theorem context_update_self (h : i < cs.size) (f : Context → Context) :
    (cs.update i f).context i = f (cs.context i) := by
  unfold update context
  simp [Array.getElem_modify, h]

theorem context_update_of_ne (h : j ≠ i) (f : Context → Context) :
    (cs.update i f).context j = cs.context j := by
  unfold update context
  simp [Array.getElem?_modify, h.symm]

theorem context_set_self (h : i < cs.size) (c : Context) :
    Contexts.context (cs.setIfInBounds i c) i = c := by
  unfold context
  simp [h]

theorem context_set_of_ne (h : j ≠ i) (c : Context) :
    Contexts.context (cs.setIfInBounds i c) j = cs.context j := by
  unfold context
  simp [h.symm]

theorem context_push_self (c : Context) : Contexts.context (cs.push c) cs.size = c := by
  unfold context
  simp

theorem context_push_of_ne (h : i ≠ cs.size) (c : Context) :
    Contexts.context (cs.push c) i = cs.context i := by
  unfold context
  rw [Array.getElem?_push, if_neg h]

/-- To change a context is to put the changed one in its place. -/
theorem update_eq_set (cs : Contexts) (i : ContextId) (f : Context → Context) :
    cs.update i f = cs.setIfInBounds i (f (cs.context i)) := by
  apply Array.ext_getElem?
  intro j
  unfold update context
  rw [Array.getElem?_modify, Array.getElem?_setIfInBounds]
  split
  · subst j
    rcases Nat.lt_or_ge i cs.size with h | h
    · simp [h]
    · simp [Nat.not_lt.2 h]
  · rfl

/-! #### all contexts -/

/-- If a context is related to the one that takes its place, each context is related to what it is
afterwards. -/
theorem related_set {R : Context → Context → Prop} (refl : ∀ a, R a a) {c : Context}
    (h : R (cs.context i) c) (j : ContextId) :
    R (cs.context j) (Contexts.context (cs.setIfInBounds i c) j) := by
  by_cases here : j = i
  · subst here
    by_cases live : j < cs.size
    · rw [context_set_self live]
      exact h
    · rw [Array.setIfInBounds_eq_of_size_le (Nat.le_of_not_lt live)]
      exact refl _
  · rw [context_set_of_ne here]
    exact refl _

theorem related_update {R : Context → Context → Prop} (refl : ∀ a, R a a) {f : Context → Context}
    (h : R (cs.context i) (f (cs.context i))) (j : ContextId) :
    R (cs.context j) ((cs.update i f).context j) := by
  rw [update_eq_set]
  exact related_set refl h j

section All

variable {P : Context → Prop} (h : ∀ j, P (cs.context j))

include h

theorem forall_push {c : Context} (hc : P c) (j : ContextId) : P (Contexts.context (cs.push c) j) := by
  by_cases hj : j = cs.size
  · rw [hj, context_push_self]
    exact hc
  · rw [context_push_of_ne hj]
    exact h j

theorem forall_set {c : Context} (hc : P c) (j : ContextId) :
    P (Contexts.context (cs.setIfInBounds i c) j) :=
  related_set (R := fun a b => P a → P b) (fun _ => id) (fun _ => hc) j (h j)

theorem forall_update {f : Context → Context} (hf : P (f (cs.context i))) (j : ContextId) :
    P ((cs.update i f).context j) := by
  rw [update_eq_set]
  exact forall_set h hf j

end All

end Contexts

/-! ### names -/

namespace Context

/-- The names of a context with their levels, newest first. -/
def names (c : Context) : List (String × Nat) :=
  c.locals.map fun l => (l.name, l.level)

theorem names_write (c : Context) (slot : Nat) (v : Value) : (c.write slot v).names = c.names := by
  unfold write names
  split
  · refine List.ext_getElem? fun k => ?_
    simp only [List.getElem?_map, List.getElem?_modify]
    split
    · cases c.locals[k]? with
      | none => rfl
      | some l => rfl
    · cases c.locals[k]? with
      | none => rfl
      | some l => rfl
  · rfl

theorem write_eq (c : Context) (slot : Nat) (v : Value) :
    c.write slot v = { c with locals := (c.write slot v).locals } := by
  unfold write
  split
  · rfl
  · rfl

theorem names_of_define {c c' : Context} {name : String} {v : Value}
    (h : c.define name v = .ok c') :
    c' = { c with locals := ⟨name, c.level, v⟩ :: c.locals } := by
  unfold define at h
  split at h
  · cases h
  · cases h
    rfl

/-- A name that can be defined is not on the current level yet. -/
theorem not_mem_names_of_define {c c' : Context} {name : String} {v : Value}
    (h : c.define name v = .ok c') : (name, c.level) ∉ c.names := by
  intro there
  obtain ⟨l, member, same⟩ := List.mem_map.1 there
  obtain ⟨rfl, level⟩ := Prod.mk.inj same
  have defined : c.definedHere l.name = true :=
    List.any_eq_true.2 ⟨l, member, by simp [level]⟩
  unfold define at h
  rw [defined] at h
  cases h

theorem names_leave (c : Context) :
    c.leave.names =
      if baseLevel < c.level then c.names.dropWhile fun p => p.2 == c.level else c.names := by
  unfold leave names
  dsimp only
  split
  · rw [List.dropWhile_map]
    rfl
  · rfl

/-- A scope that is entered while a level is left for it is on the next level. -/
theorem level_enter {c : Context} (free : c.full = false) : c.enter.level = c.level + 1 := by
  have below : c.level + 1 < UInt32.size := by
    have := of_decide_eq_false free
    unfold lastLevel at this
    omega
  exact Nat.mod_eq_of_lt below

/-! ### layers -/

/-- No name is above the current level, and above the base level no name is below an older one. -/
structure Layered (c : Context) : Prop where
  below : ∀ p ∈ c.names, p.2 ≤ max c.level baseLevel
  sorted : c.names.Pairwise fun newer older => older.2 ≤ max newer.2 baseLevel

namespace Layered

variable {c c' : Context}

theorem of_eq (h : c.Layered) (hn : c'.names = c.names) (hl : c'.level = c.level) :
    c'.Layered :=
  ⟨by rw [hn, hl]; exact h.below, by rw [hn]; exact h.sorted⟩

theorem root : Context.root.Layered :=
  ⟨by simp [Context.root, names], by simp [Context.root, names]⟩

theorem define (h : c.Layered) {name : String} {v : Value} (hd : c.define name v = .ok c') :
    c'.Layered := by
  rw [names_of_define hd]
  refine ⟨fun p hp => ?_, List.pairwise_cons.2 ⟨fun p hp => h.below p hp, h.sorted⟩⟩
  rcases List.mem_cons.1 hp with rfl | hp
  · exact Nat.le_max_left _ _
  · exact h.below p hp

theorem enter (h : c.Layered) (free : c.full = false) : c.enter.Layered := by
  refine ⟨fun p hp => ?_, h.sorted⟩
  have := h.below p hp
  rw [level_enter free]
  omega

/-- Leaving a scope drops its names, and the names below it are in layers again. -/
theorem leave (h : c.Layered) : c.leave.Layered := by
  constructor
  · intro p hp
    rw [names_leave] at hp
    change p.2 ≤ max (c.level - 1) baseLevel
    split at hp
    · next hbase =>
      -- The newest name that stays is below the current level, and all others are not above it.
      have hsuffix := List.dropWhile_suffix (l := c.names) fun p => p.2 == c.level
      rcases hd : c.names.dropWhile (fun p => p.2 == c.level) with _ | ⟨first, rest⟩
      · rw [hd] at hp
        cases hp
      · have hfirst : first.2 ≠ c.level := by
          have := List.head_dropWhile_not (fun p : String × Nat => p.2 == c.level)
            (l := c.names) (by rw [hd]; simp)
          simpa [hd] using this
        rw [hd] at hp hsuffix
        have hbelow := h.below first (hsuffix.subset List.mem_cons_self)
        have hsorted := List.pairwise_cons.1 (h.sorted.sublist hsuffix.sublist)
        simp only [baseLevel] at hbase hbelow hsorted ⊢
        rcases List.mem_cons.1 hp with rfl | hp
        · omega
        · have := hsorted.1 p hp
          omega
    · next hbase =>
      have := h.below p hp
      simp only [baseLevel] at hbase this ⊢
      omega
  · rw [names_leave]
    split
    · exact h.sorted.sublist (List.dropWhile_suffix _).sublist
    · exact h.sorted

end Layered

/-! ### one operation -/

/-- Two contexts are the same but for their frames. -/
def Reframes (a b : Context) : Prop :=
  ∃ loops calls, b = { a with loops, calls }

namespace Reframes

variable {a b : Context}

theorem pushLoop : a.Reframes a.pushLoop := ⟨_, _, rfl⟩

theorem pushCall : a.Reframes a.pushCall := ⟨_, _, rfl⟩

theorem of_signal {f : LoopFrame → LoopFrame} (h : a.signal f = .ok b) : a.Reframes b := by
  unfold signal at h
  split at h
  · cases h
    exact ⟨_, _, rfl⟩
  · cases h

theorem of_popLoop {frame : LoopFrame} (h : a.popLoop = .ok (frame, b)) : a.Reframes b := by
  unfold popLoop at h
  split at h
  · cases h
    exact ⟨_, _, rfl⟩
  · cases h

theorem of_pushReturns {values : List Value} (h : a.pushReturns values = .ok b) :
    a.Reframes b := by
  unfold pushReturns at h
  split at h
  · cases h
    exact ⟨_, _, rfl⟩
  · cases h

theorem of_popCall {returned : List Value} (h : a.popCall = .ok (returned, b)) :
    a.Reframes b := by
  unfold popCall at h
  split at h
  · cases h
    exact ⟨_, _, rfl⟩
  · cases h

end Reframes

/-- What one operation makes of a context. -/
inductive Change (a : Context) : Context → Prop
  | define {b : Context} {name : String} {v : Value} : a.define name v = .ok b → Change a b
  | write (slot : Nat) (v : Value) : Change a (a.write slot v)
  | enter : a.full = false → Change a a.enter
  | leave : Change a a.leave
  | frames {b : Context} : a.Reframes b → Change a b

/-- No operation moves a context elsewhere. -/
theorem Change.parent {a b : Context} (h : a.Change b) : b.parent = a.parent := by
  cases h with
  | define done => rw [names_of_define done]
  | write slot v => rw [write_eq]
  | enter free => rfl
  | leave => rfl
  | frames same =>
    obtain ⟨loops, calls, rfl⟩ := same
    rfl

theorem Layered.change {a b : Context} (h : a.Layered) (change : a.Change b) : b.Layered := by
  cases change with
  | define done => exact h.define done
  | write slot v => exact h.of_eq (names_write ..) (by rw [write_eq])
  | enter free => exact h.enter free
  | leave => exact h.leave
  | frames same =>
    obtain ⟨loops, calls, rfl⟩ := same
    exact h.of_eq rfl rfl

/-- No operation gives a context two names that are alike on one level. -/
theorem Change.nodup {a b : Context} (change : a.Change b) (h : a.names.Nodup) :
    b.names.Nodup := by
  cases change with
  | define done =>
    rw [names_of_define done]
    exact List.nodup_cons.2 ⟨not_mem_names_of_define done, h⟩
  | write slot v =>
    rw [names_write]
    exact h
  | enter free => exact h
  | leave =>
    rw [names_leave]
    split
    · exact h.sublist (List.dropWhile_suffix _).sublist
    · exact h
  | frames same =>
    obtain ⟨loops, calls, rfl⟩ := same
    exact h

/-- A context as it is added to `size` others: it has at most names of the library, all of them
different, and if it is inside another, then inside one of these. -/
structure New (size : Nat) (c : Context) : Prop where
  level : c.level = baseLevel
  nodup : c.names.Nodup
  builtin : ∀ p ∈ c.names, p.2 = builtinLevel
  older : ∀ p, c.parent = some p → p < size

namespace New

variable {size : Nat} {c : Context}

theorem root : New size .root := ⟨rfl, .nil, List.forall_mem_nil _, nofun⟩

theorem inside {parent : ContextId} (older : parent < size) : New size (.inside parent) :=
  ⟨rfl, .nil, List.forall_mem_nil _, fun _ above => Option.some.inj above ▸ older⟩

theorem library (level : c.level = baseLevel)
    (names : c.names = ["sleep", "console", "math"].map (·, builtinLevel))
    (outermost : c.parent = none) : New size c := by
  refine ⟨level, by rw [names]; decide, fun p member => ?_, by rw [outermost]; exact nofun⟩
  rw [names] at member
  obtain ⟨name, -, rfl⟩ := List.mem_map.1 member
  rfl

theorem layered (h : c.New size) : c.Layered where
  below p member := by
    rw [h.builtin p member]
    exact Nat.zero_le _
  sorted := List.pairwise_iff_getElem.2 fun _ _ _ inside _ => by
    rw [h.builtin _ (List.getElem_mem inside)]
    exact Nat.zero_le _

end New

end Context

/-! ### what can be done to contexts -/

theorem World.contexts_newBuiltins (bs : List Builtin) (w : World) :
    (w.newBuiltins bs).2.contexts = w.contexts := by
  induction bs generalizing w with
  | nil => rfl
  | cons b bs ih => exact ih _

theorem World.newLibrary_eq (name : String) (constants : List (String × Value))
    (bs : List Builtin) (w : World) : ∃ v w', w.newLibrary name constants bs =
      (⟨name, Context.builtinLevel, v⟩, w') ∧ w'.contexts = w.contexts :=
  ⟨_, _, rfl, w.contexts_newBuiltins bs⟩

/-- The library stands at the built-in level of a new context. -/
theorem World.contexts_newGlobal (w : World) :
    ∃ c : Context, w.newGlobal.2.contexts = w.contexts.push c ∧ c.level = Context.baseLevel ∧
      c.names = ["sleep", "console", "math"].map (·, Context.builtinLevel) ∧ c.parent = none := by
  obtain ⟨math, w₁, h₁, k₁⟩ := newLibrary_eq "math" [("PI", .number pi), ("TAU", .number (2 * pi))]
    (MathFunction.all.map Builtin.math ++ [.random]) w
  obtain ⟨console, w₂, h₂, k₂⟩ := newLibrary_eq "console" []
    (ConsoleFunction.all.map Builtin.console) w₁
  obtain ⟨sleep, w₃, h₃, k₃⟩ := newLibrary_eq "sleep" [] [.sleep] w₂
  unfold World.newGlobal
  rw [h₁]
  dsimp only
  rw [h₂]
  dsimp only
  rw [h₃]
  unfold World.addContext
  dsimp only
  rw [k₃, k₂, k₁]
  exact ⟨_, rfl, rfl, rfl, rfl⟩

theorem World.newGlobal_live (w : World) : w.newGlobal.1 < w.newGlobal.2.contexts.size := by
  unfold newGlobal addContext
  dsimp only
  rw [Array.size_push]
  exact Nat.lt_succ_self _

/-- A new context with the library has nothing but names, all of them at the built-in level. -/
theorem World.context_newGlobal (w : World) : ∃ locals : List Local,
    w.newGlobal.2.context w.newGlobal.1 = { Context.root with locals } ∧
      ∀ l ∈ locals, l.level = Context.builtinLevel := by
  unfold World.newGlobal World.addContext
  dsimp only
  refine ⟨_, Contexts.context_push_self _, fun l member => ?_⟩
  simp only [List.mem_cons, List.not_mem_nil, or_false] at member
  rcases member with rfl | rfl | rfl
  · rfl
  · rfl
  · rfl

namespace Contexts

/-- One operation on the contexts: a new context, a name defined or written, a scope entered or
left, a frame opened, marked or closed. A scope can be entered while a level is left for it. -/
inductive Step : Contexts → Contexts → Prop
  | newRoot (w : World) : Step w.contexts w.newRoot.2.contexts
  | newGlobal (w : World) : Step w.contexts w.newGlobal.2.contexts
  | newChild (w : World) (parent : ContextId) : parent < w.contexts.size →
      Step w.contexts (w.newChild parent).2.contexts
  | define {cs cs' : Contexts} (i : ContextId) (name : String) (v : Value) :
      cs.define i name v = .ok cs' → Step cs cs'
  | assign {cs cs' : Contexts} (i : ContextId) (name : String) (v : Value) :
      cs.assign i name v = .ok cs' → Step cs cs'
  | write (cs : Contexts) (b : Binding) (v : Value) : Step cs (cs.write b v)
  | enter {cs : Contexts} {i : ContextId} : (cs.context i).full = false →
      Step cs (cs.update i Context.enter)
  | leave (cs : Contexts) (i : ContextId) : Step cs (cs.update i Context.leave)
  | pushLoop (cs : Contexts) (i : ContextId) : Step cs (cs.update i Context.pushLoop)
  | popLoop {cs : Contexts} {i : ContextId} {frame : LoopFrame} {c : Context} :
      (cs.context i).popLoop = .ok (frame, c) → Step cs (cs.setIfInBounds i c)
  | markBreak {cs : Contexts} {i : ContextId} {c : Context} :
      (cs.context i).markBreak = .ok c → Step cs (cs.setIfInBounds i c)
  | markContinue {cs : Contexts} {i : ContextId} {c : Context} :
      (cs.context i).markContinue = .ok c → Step cs (cs.setIfInBounds i c)
  | pushCall (cs : Contexts) (i : ContextId) : Step cs (cs.update i Context.pushCall)
  | popCall {cs : Contexts} {i : ContextId} {returned : List Value} {c : Context} :
      (cs.context i).popCall = .ok (returned, c) → Step cs (cs.setIfInBounds i c)
  | pushReturns {cs : Contexts} {i : ContextId} {values : List Value} {c : Context} :
      (cs.context i).pushReturns values = .ok c → Step cs (cs.setIfInBounds i c)

/-- Contexts that come about by some operations. -/
def Reachable (cs : Contexts) : Prop :=
  Relation.ReflTransGen Step #[] cs

/-- **What a step does**: it adds a new context, or changes one of those that are there. -/
theorem Step.cases {cs cs' : Contexts} (h : Step cs cs') :
    (∃ c, c.New cs.size ∧ cs' = cs.push c) ∨
      ∃ i c, (cs.context i).Change c ∧ cs' = cs.setIfInBounds i c := by
  cases h with
  | newRoot w => exact .inl ⟨.root, .root, rfl⟩
  | newGlobal w =>
    obtain ⟨c, made, level, names, root⟩ := w.contexts_newGlobal
    exact .inl ⟨c, .library level names root, made⟩
  | newChild w parent older => exact .inl ⟨.inside parent, .inside older, rfl⟩
  | define i name v done =>
    unfold Contexts.define at done
    cases defined : (cs.context i).define name v with
    | error fault =>
      rw [defined] at done
      cases done
    | ok c =>
      rw [defined] at done
      cases done
      exact .inr ⟨i, c, .define defined, rfl⟩
  | assign i name v done =>
    unfold Contexts.assign at done
    split at done
    · next b _ =>
      cases done
      exact .inr ⟨b.context, _, .write b.slot v, update_eq_set ..⟩
    · cases done
  | write _ b v => exact .inr ⟨b.context, _, .write b.slot v, update_eq_set ..⟩
  | enter free => exact .inr ⟨_, _, .enter free, update_eq_set ..⟩
  | leave _ i => exact .inr ⟨i, _, .leave, update_eq_set ..⟩
  | pushLoop _ i => exact .inr ⟨i, _, .frames .pushLoop, update_eq_set ..⟩
  | popLoop done => exact .inr ⟨_, _, .frames (.of_popLoop done), rfl⟩
  | markBreak done => exact .inr ⟨_, _, .frames (.of_signal done), rfl⟩
  | markContinue done => exact .inr ⟨_, _, .frames (.of_signal done), rfl⟩
  | pushCall _ i => exact .inr ⟨i, _, .frames .pushCall, update_eq_set ..⟩
  | popCall done => exact .inr ⟨_, _, .frames (.of_popCall done), rfl⟩
  | pushReturns done => exact .inr ⟨_, _, .frames (.of_pushReturns done), rfl⟩

theorem Step.size_le {cs cs' : Contexts} (h : Step cs cs') : cs.size ≤ cs'.size := by
  rcases h.cases with ⟨c, -, rfl⟩ | ⟨i, c, -, rfl⟩
  · rw [Array.size_push]
    exact Nat.le_succ _
  · exact Nat.le_of_eq Array.size_setIfInBounds.symm

theorem Step.nodup {cs cs' : Contexts} (hs : Step cs cs')
    (h : ∀ i, (cs.context i).names.Nodup) : ∀ i, (cs'.context i).names.Nodup := by
  rcases hs.cases with ⟨c, new, rfl⟩ | ⟨i, c, change, rfl⟩
  · exact forall_push (P := fun c => c.names.Nodup) h new.nodup
  · exact forall_set (P := fun c => c.names.Nodup) h (change.nodup (h i))

/-- All contexts have their names in layers. -/
def Layered (cs : Contexts) : Prop :=
  ∀ i, (cs.context i).Layered

theorem Step.layered {cs cs' : Contexts} (hs : Step cs cs') (h : cs.Layered) : cs'.Layered := by
  rcases hs.cases with ⟨c, new, rfl⟩ | ⟨i, c, change, rfl⟩
  · exact forall_push h new.layered
  · exact forall_set h ((h i).change change)

/-- **All contexts that can be reached have their names in layers.** -/
theorem Reachable.layered {cs : Contexts} (h : cs.Reachable) : cs.Layered := by
  induction h with
  | refl =>
    intro i
    rw [context_of_size_le (by simp)]
    exact .root
  | tail _ hs ih => exact hs.layered ih

end Contexts

end Roteiro
