import Roteiro.Proofs.Scope.Resolution
import Roteiro.Proofs.Trace.Coherence

/-!
What functions capture. A function closes over a whole context and not over the scopes that are open
in it, so a name in its body is looked up in that context as it is at the call. What a name stood for
when the function was made is still there as long as its scope was not left, and names of the base
level are never dropped; but a newer declaration of the name may hide it
(`Session.captures_context`).
-/

namespace Roteiro

open Eval World

/-! ### slots -/

namespace Context

/-- The name and the level in a slot. -/
def nameAt? (a : Context) (slot : Nat) : Option (String × Nat) :=
  a.names.reverse[slot]?

variable {a b : Context} {name : String} {slot : Nat}

theorem nameAt_of_slot (h : a.slot? name = some slot) :
    ∃ level, a.nameAt? slot = some (name, level) := by
  unfold slot? at h
  unfold nameAt? names
  generalize a.locals = ls at h ⊢
  induction ls with
  | nil => cases h
  | cons l older ih =>
    rw [slotIn] at h
    rw [List.map_cons, List.reverse_cons]
    split at h
    · next same =>
      cases h
      exact ⟨l.level, by rw [List.getElem?_append_right (by simp)]; simp [same]⟩
    · obtain ⟨level, found⟩ := ih h
      exact ⟨level, (List.getElem?_append_left (List.getElem?_eq_some_iff.1 found).1).trans found⟩

/-- A name in a slot is found there or in a newer slot. -/
theorem slot_of_nameAt {level : Nat} (h : a.nameAt? slot = some (name, level)) :
    ∃ newest, a.slot? name = some newest ∧ slot ≤ newest := by
  unfold slot?
  unfold nameAt? names at h
  generalize a.locals = ls at h ⊢
  induction ls with
  | nil => cases h
  | cons l older ih =>
    rw [List.map_cons, List.reverse_cons] at h
    rw [slotIn]
    have filled := (List.getElem?_eq_some_iff.1 h).1
    simp only [List.length_append, List.length_reverse, List.length_map,
      List.length_singleton] at filled
    split
    · exact ⟨older.length, rfl, by omega⟩
    · next differ =>
      by_cases last : slot = older.length
      · rw [List.getElem?_append_right (by simp [last])] at h
        simp only [List.length_reverse, List.length_map, last, Nat.sub_self] at h
        cases h
        exact absurd rfl differ
      · rw [List.getElem?_append_left (by simp; omega)] at h
        exact ih h

/-- No newer slot has the name than the one that is found. -/
theorem le_of_nameAt {slot' level : Nat} (h : a.slot? name = some slot)
    (stands : a.nameAt? slot' = some (name, level)) : slot' ≤ slot := by
  obtain ⟨newest, found, newer⟩ := slot_of_nameAt stands
  cases h.symm.trans found
  exact newer

/-- What is in a slot stays there if it is of the base level, or if the slot is not vacant. -/
theorem Near.nameAt {e : String × Nat} (h : Near false a b) (found : a.nameAt? slot = some e)
    (kept : e.2 ≤ baseLevel ∨ slot < b.names.length) : b.nameAt? slot = some e := by
  unfold nameAt? at found ⊢
  rcases h.names with ⟨added, names⟩ | ⟨-, dropped, names, high⟩
  · rw [names, List.reverse_append]
    exact (List.getElem?_append_left (List.getElem?_eq_some_iff.1 found).1).trans found
  · rw [names, List.reverse_append] at found
    by_cases still : slot < b.names.length
    · rwa [List.getElem?_append_left (by simpa using still)] at found
    · rw [List.getElem?_append_right (by simpa using still)] at found
      have member := List.mem_reverse.1 (List.mem_of_getElem? found)
      have above := high e member
      omega

end Context

/-! ### bindings -/

/-- A name stands in the slot of a binding. -/
def Binding.Names (b : Binding) (name : String) (w : World) : Prop :=
  ∃ level, (w.context b.context).nameAt? b.slot = some (name, level)

/-- The slot of a binding is not vacant. -/
def Binding.Filled (b : Binding) (w : World) : Prop :=
  b.slot < (w.context b.context).locals.length

instance (b : Binding) (w : World) : Decidable (b.Filled w) :=
  inferInstanceAs (Decidable (_ < _))

/-- A binding of the base level, which no scope drops. -/
def Binding.Lasting (b : Binding) (w : World) : Prop :=
  ∀ e ∈ (w.context b.context).nameAt? b.slot, e.2 ≤ Context.baseLevel

namespace World

/-- Contexts were added, if any, and none got another parent. -/
structure Descends (u w : World) : Prop where
  size : u.contexts.size ≤ w.contexts.size
  parents : ∀ i < u.contexts.size, (w.context i).parent = (u.context i).parent

theorem Descends.refl (w : World) : Descends w w := ⟨Nat.le_refl _, fun _ _ => rfl⟩

theorem Descends.near {u v w : World} (h : Descends u v) (near : Near false v w) : Descends u w :=
  ⟨Nat.le_trans h.size near.size, fun i hi =>
    (near.contexts i (Nat.lt_of_lt_of_le hi h.size)).parent.trans (h.parents i hi)⟩

theorem lt_size_of_ne_root {w : World} {i : ContextId} (h : w.context i ≠ .root) :
    i < w.contexts.size := by
  by_contra outside
  exact h (Contexts.context_of_size_le (Nat.not_lt.1 outside))

end World

theorem Binding.Names.live {b : Binding} {name : String} {w : World} (h : b.Names name w) :
    b.context < w.contexts.size := by
  obtain ⟨level, stands⟩ := h
  refine lt_size_of_ne_root fun root => ?_
  rw [root] at stands
  cases stands

/-! ### resolution -/

namespace Contexts

variable {cs : Contexts} {name : String} {n k : Nat} {i : ContextId} {b : Binding}

/-- **A name that resolved to a binding resolves to it later on**, if it stands there still, or else
to a binding where it did not stand before. -/
theorem resolveWithin_later {u w : World} (h : Descends u w)
    (found : u.contexts.resolveWithin name n i = some b) (enough : n ≤ k) (named : b.Names name w) :
    ∃ b', w.contexts.resolveWithin name k i = some b' ∧ (b' = b ∨ ¬ b'.Names name u) := by
  induction n generalizing i k with
  | zero => cases found
  | succ n ih =>
    obtain ⟨k, rfl⟩ : ∃ j, k = j + 1 := ⟨k - 1, by omega⟩
    obtain ⟨slot, here, rfl⟩ | ⟨p, here, above, found⟩ := resolveWithin_cases found
    · obtain ⟨level, stands⟩ := named
      obtain ⟨newest, now, newer⟩ := Context.slot_of_nameAt stands
      refine ⟨⟨i, newest⟩, resolveWithin_of_slot now k, ?_⟩
      rcases Nat.eq_or_lt_of_le newer with rfl | hidden
      · exact .inl rfl
      · refine .inr ?_
        rintro ⟨level, before⟩
        exact Nat.not_lt.2 (Context.le_of_nameAt here before) hidden
    · cases now : (w.contexts.context i).slot? name with
      | some slot =>
        refine ⟨⟨i, slot⟩, resolveWithin_of_slot now k, .inr ?_⟩
        rintro ⟨level, before⟩
        obtain ⟨slot', found, -⟩ := Context.slot_of_nameAt before
        cases found.symm.trans here
      | none =>
        have live : i < u.contexts.size := lt_size_of_ne_root fun root => by
          cases (congrArg Context.parent root).symm.trans above
        have parent : (w.contexts.context i).parent = some p := (h.parents i live).trans above
        rw [resolveWithin_of_parent now parent]
        exact ih found (Nat.le_of_succ_le_succ enough)

/-- A name stands where it resolves to. -/
theorem names_of_resolveWithin {w : World} (found : w.contexts.resolveWithin name n i = some b) :
    b.Names name w := by
  induction n generalizing i with
  | zero => cases found
  | succ n ih =>
    obtain ⟨slot, here, rfl⟩ | ⟨p, -, -, found⟩ := resolveWithin_cases found
    · exact Context.nameAt_of_slot here
    · exact ih found

end Contexts

/-! ### histories -/

/-- What one moment hands on to the next holds at all later ones. -/
theorem Moment.Coherent.hands_on {P : World → Prop} {before later : List Moment} {mo : Moment}
    (h : Coherent (before ++ mo :: later)) (start : P mo.world)
    (step : ∀ m ∈ later, ∀ u, Near false u m.world → P u → P m.world) :
    ∀ m ∈ later, P m.world := by
  induction later generalizing before mo with
  | nil =>
    intro m member
    cases member
  | cons next later ih =>
    rw [List.append_cons] at h
    have near : Near false mo.world next.world := h.next.near mo (by simp)
    obtain ⟨first, rest⟩ := List.forall_mem_cons.1 step
    have reached := first mo.world near start
    exact List.forall_mem_cons.2 ⟨reached, ih h reached rest⟩

theorem Moment.Coherent.descends {before later : List Moment} {mo : Moment}
    (h : Coherent (before ++ mo :: later)) : ∀ m ∈ later, Descends mo.world m.world :=
  h.hands_on (.refl _) fun _ _ _ near descends => descends.near near

/-- A name stands in its slot as long as it is of the base level or the slot is not vacant. -/
theorem Moment.Coherent.names {before later : List Moment} {mo : Moment} {b : Binding} {name : String}
    (h : Coherent (before ++ mo :: later)) (named : b.Names name mo.world)
    (kept : b.Lasting mo.world ∨ ∀ m ∈ later, b.Filled m.world) :
    ∀ m ∈ later, b.Names name m.world := by
  have live := named.live
  obtain ⟨level, stands⟩ := named
  have still := h.hands_on (P := fun u => b.context < u.contexts.size ∧
    (u.context b.context).nameAt? b.slot = some (name, level)) ⟨live, stands⟩ ?_
  · exact fun m member => ⟨level, (still m member).2⟩
  rintro m member u near ⟨live, stands'⟩
  refine ⟨Nat.lt_of_lt_of_le live near.size, (near.contexts _ live).nameAt stands' ?_⟩
  refine kept.imp (fun lasting => lasting _ stands) fun filled => ?_
  rw [Context.names, List.length_map]
  exact filled m member

/-! ### functions -/

/-- All values of an evaluation are as `P` says. -/
def Eval.Yields {σ : Type} (P : Value → Prop) (x : Eval σ Value) : Prop :=
  ∀ m v m', x m = (.ok v, m') → P v

namespace Eval.Yields

variable {σ : Type} {P : Value → Prop} {x : Eval σ Value}

theorem capture (h : Yields P x) (o : Observer σ) (node : Node) (c : ContextId) :
    Yields P (o.capture node c x) := by
  intro m v m' ran
  rw [Observer.capture_eq] at ran
  obtain ⟨taken, m₁, -, ran⟩ := Eval.of_bind_ok ran
  obtain ⟨value, m₂, evaluated, ran⟩ := Eval.of_bind_ok ran
  have same : value = v := by
    cases taken with
    | false =>
      cases ran
      rfl
    | true =>
      rw [if_pos rfl, Observer.leaving] at ran
      split at ran
      · cases ran
        rfl
      · cases ran
  exact same ▸ h m₁ value m₂ evaluated

theorem captureTimes (h : Yields P x) (o : Observer σ) (times : Nat) (node : Node) (c : ContextId) :
    Yields P (o.captureTimes times node c x) := by
  induction times with
  | zero => exact h
  | succ times ih => exact ih.capture o node c

end Eval.Yields

/-- A literal closes over the context in which it is evaluated. -/
theorem yields_literal {σ : Type} (o : Observer σ) (fuel : Nat) (r : Routine) (c : ContextId) :
    Yields (fun v => ∃ id, v = .function id ⟨r, c⟩) (evaluate o fuel (.function r) c) := by
  cases fuel with
  | zero =>
    intro m v m' ran
    rw [evaluate] at ran
    cases ran
  | succ fuel =>
    rw [evaluate]
    refine Yields.captureTimes ?_ o _ _ c
    intro m v m' ran
    cases ran
    exact ⟨_, rfl⟩

/-- A declared function closes over the context in which it is declared. -/
theorem yields_declared {σ : Type} (o : Observer σ) (fuel : Nat) (r : Routine) (c : ContextId) :
    Yields (fun v => ∃ id, v = .function id ⟨r, c⟩) (execute o fuel (.function r) c) := by
  cases fuel with
  | zero =>
    intro m v m' ran
    rw [execute] at ran
    cases ran
  | succ fuel =>
    rw [execute]
    refine Yields.capture ?_ o _ c
    intro m v m' ran
    obtain ⟨f, m₁, made, ran⟩ := Eval.of_bind_ok ran
    cases made
    cases named : r.name with
    | none =>
      rw [named] at ran
      cases ran
      exact ⟨_, rfl⟩
    | some name =>
      rw [named] at ran
      obtain ⟨_, m₂, -, ran⟩ := Eval.of_bind_ok ran
      cases ran
      exact ⟨_, rfl⟩

/-- A name that a call has not bound is looked up in the context of the function. -/
theorem Closure.Owns.absent {f : Closure} {a : Context} (owns : f.Owns a) {name : String}
    (free : f.routine.Binds name → ∀ p ∈ a.names, p.1 ≠ name) : a.slot? name = none := by
  cases here : a.slot? name with
  | none => rfl
  | some slot =>
    obtain ⟨level, stands⟩ := Context.nameAt_of_slot here
    have member := List.mem_reverse.1 (List.mem_of_getElem? stands)
    exact absurd rfl (free (owns.names _ member) _ member)

theorem Moment.split_at {ms : List Moment} {i : Nat} {mo : Moment} (h : ms[i]? = some mo) :
    ms = ms.take i ++ mo :: ms.drop (i + 1) := by
  obtain ⟨short, rfl⟩ := List.getElem?_eq_some_iff.1 h
  rw [← List.drop_eq_getElem_cons, List.take_append_drop]

namespace Session

/-- The moments of a run after the moment `i`, up to the moment `j`. -/
def between (s : Session) (fuel : Nat) (w : World) (i j : Nat) : List Moment :=
  ((s.history fuel w).take (j + 1)).drop (i + 1)

/-- At the moment `j` of a run a call of a function is under way, which was begun after the moment
`i`. -/
structure LaterCall (s : Session) (fuel : Nat) (w : World) (i j : Nat) (mo mo' : Moment)
    (f : Closure) : Prop where
  order : i < j
  earlier : (s.history fuel w)[i]? = some mo
  later : (s.history fuel w)[j]? = some mo'
  callee : ∃ id, Task.callee (mo'.stack (Moment.tasks ((s.history fuel w).take j))) =
    some (.function id f)
  begun : mo.world.contexts.size ≤ mo'.context

namespace LaterCall

variable {s : Session} {fuel : Nat} {w : World} {i j : Nat} {mo mo' : Moment} {f : Closure}

/-- The context of the call is as the function makes it. -/
theorem owns (h : s.LaterCall fuel w i j mo mo' f) (coherent : Moment.Coherent (s.history fuel w)) :
    f.Owns (mo'.world.context mo'.context) ∧ mo'.context < mo'.world.contexts.size := by
  obtain ⟨id, callee⟩ := h.callee
  rw [Moment.split_at h.later] at coherent
  exact ⟨coherent.next.hosts.owner callee, coherent.next.live⟩

theorem coherent_between (h : s.LaterCall fuel w i j mo mo' f)
    (coherent : Moment.Coherent (s.history fuel w)) :
    ∃ before, Moment.Coherent (before ++ mo :: s.between fuel w i j) := by
  have seen : ((s.history fuel w).take (j + 1))[i]? = some mo := by
    rw [List.getElem?_take_of_lt (Nat.lt_succ_of_lt h.order)]
    exact h.earlier
  rw [← List.take_append_drop (j + 1) (s.history fuel w)] at coherent
  have upto := coherent.of_append
  rw [Moment.split_at seen] at upto
  exact ⟨_, upto⟩

theorem mem_between (h : s.LaterCall fuel w i j mo mo' f) : mo' ∈ s.between fuel w i j := by
  have order := h.order
  refine List.mem_of_getElem? (i := j - (i + 1)) ?_
  rw [between, List.getElem?_drop, Nat.add_sub_cancel' order,
    List.getElem?_take_of_lt (Nat.lt_succ_self j)]
  exact h.later

end LaterCall

/-- **A call looks names up in the context of its function, as it is then.** The value of a literal
or a declaration closes over the context that it is evaluated in. If a name resolves to a binding in
that context, a later call that has not bound the name itself resolves it as the context does: to the
same binding, where the scope of the binding was not left in between, or else to a newer declaration
of the name, which hides it. -/
theorem captures_context (s : Session) (w : World) (live : s.context < w.contexts.size)
    (frameless : (w.context s.context).frames = ⟨[], []⟩) (fuel : Nat) :
    (∀ (r : Routine) (c : ContextId) (m m' : Machine Chronicle) (v : Value),
      Roteiro.evaluate Chronicle.observer fuel (.function r) c m = (.ok v, m') ∨
        execute Chronicle.observer fuel (.function r) c m = (.ok v, m') →
      ∃ id, v = .function id ⟨r, c⟩) ∧
    ∀ (i j : Nat) (mo mo' : Moment) (f : Closure) (name : String) (b : Binding),
      s.LaterCall fuel w i j mo mo' f →
      mo.world.contexts.resolve? f.context name = some b →
      (f.routine.Binds name → ∀ p ∈ (mo'.world.context mo'.context).names, p.1 ≠ name) →
      b.Lasting mo.world ∨ (∀ m ∈ s.between fuel w i j, b.Filled m.world) →
      ∃ b', mo'.world.contexts.resolve? mo'.context name = some b' ∧
        mo'.world.contexts.resolve? f.context name = some b' ∧
        (b' = b ∨ ¬ b'.Names name mo.world) := by
  refine ⟨fun r c m m' v ran => ?_, ?_⟩
  · rcases ran with evaluated | executed
    · exact yields_literal _ fuel r c m v m' evaluated
    · exact yields_declared _ fuel r c m v m' executed
  intro i j mo mo' f name b call resolved free kept
  have coherent := s.coherent live frameless fuel
  obtain ⟨owns, live'⟩ := call.owns coherent
  obtain ⟨before, upto⟩ := call.coherent_between coherent
  -- From the one moment to the other the parents are kept, and the name stays in its slot.
  have descends := upto.descends mo' call.mem_between
  have named := upto.names (Contexts.names_of_resolveWithin resolved) kept mo' call.mem_between
  -- The context of the call was not there before, so there is one context more to look in.
  have more : mo.world.contexts.size < mo'.world.contexts.size :=
    Nat.lt_of_le_of_lt call.begun live'
  obtain ⟨n, size⟩ : ∃ n, mo'.world.contexts.size = n + 1 :=
    ⟨mo'.world.contexts.size - 1, by omega⟩
  have enough : mo.world.contexts.size ≤ n := by omega
  obtain ⟨b', found, which⟩ := Contexts.resolveWithin_later descends resolved enough named
  refine ⟨b', ?_, ?_, which⟩
  · rw [Contexts.resolve?, size, Contexts.resolveWithin_of_parent (owns.absent free) owns.parent]
    exact found
  · exact Contexts.resolveWithin_mono found (by omega)

/-- A function of a block, called in a block inside of it: the name is that of the outer block. -/
theorem captures_context_of_block :
    let x : Ident := ⟨"x", ⟨14, 1⟩⟩
    let f : Ident := ⟨"f", ⟨39, 1⟩⟩
    let routine : Routine :=
      .mk none [] [.returnValues [.atom (.identifier x) ⟨59, 1⟩] ⟨51, 9⟩] ⟨43, 21⟩
    let inner : List Statement :=
      [.declaration ⟨"y", ⟨80, 1⟩⟩ (.atom (.boolean false) ⟨84, 5⟩) ⟨71, 18⟩,
        .expression (.call (.atom (.identifier f) ⟨90, 1⟩) [] ⟨90, 3⟩)]
    let outer : List Statement :=
      [.declaration x (.atom (.boolean true) ⟨18, 10⟩) ⟨5, 23⟩,
        .declaration f (.function routine) ⟨30, 34⟩, .block inner ⟨65, 32⟩]
    let s : Session := { program := ⟨[.block outer ⟨0, 101⟩], ⟨0, 101⟩⟩, context := 0 }
    let w : World := { contexts := #[.root], terminal := .captured [] }
    let block : Context :=
      { Context.root with locals := [⟨"x", 2, .boolean true⟩], level := 2 }
    let deeper : Context :=
      { Context.root with
        locals :=
          [⟨"y", 3, .boolean false⟩, ⟨"f", 2, .function 0 ⟨routine, 0⟩⟩, ⟨"x", 2, .boolean true⟩]
        level := 3 }
    let mo : Moment := .enter (.expression (.function routine)) 0 { w with contexts := #[block] }
    let mo' : Moment := .enter (.expression (.atom (.identifier x) ⟨59, 1⟩)) 1
      { w with contexts := #[deeper, { Context.inside 0 with calls := [[]] }], identities := 1 }
    s.LaterCall 9 w 17 65 mo mo' ⟨routine, 0⟩ ∧
      mo.world.contexts.resolve? 0 "x" = some ⟨0, 0⟩ ∧
      (∀ m ∈ s.between 9 w 17 65, Binding.Filled ⟨0, 0⟩ m.world) ∧
      ∃ b', mo'.world.contexts.resolve? 1 "x" = some b' ∧ mo'.world.contexts.resolve? 0 "x" = some b' ∧
        (b' = ⟨0, 0⟩ ∨ ¬ b'.Names "x" mo.world) := by
  intro x f routine inner outer s w block deeper mo mo'
  have call : s.LaterCall 9 w 17 65 mo mo' ⟨routine, 0⟩ :=
    ⟨by decide, by unfold mo; cbv, by unfold mo'; cbv, ⟨0, by unfold mo'; cbv⟩, by decide⟩
  have filled : ∀ m ∈ s.between 9 w 17 65, Binding.Filled ⟨0, 0⟩ m.world := by decide +kernel
  have free : ∀ p ∈ (mo'.world.context 1).names, p.1 ≠ "x" := by decide
  exact ⟨call, by decide, filled, (s.captures_context w (by decide) rfl 9).2 17 65 mo mo' _ "x" ⟨0, 0⟩
    call (by decide) (fun _ => free) (.inr filled)⟩

/-- A function that outlives the block in which it was made does not find the names of the block. -/
theorem captured_block_left :
    ¬ ∀ (s : Session) (w : World), s.context < w.contexts.size →
      (w.context s.context).frames = ⟨[], []⟩ →
      ∀ (fuel i j : Nat) (mo mo' : Moment) (f : Closure) (name : String) (b : Binding),
        s.LaterCall fuel w i j mo mo' f → mo.world.contexts.resolve? f.context name = some b →
        ¬ f.routine.Binds name → mo'.world.contexts.resolve? mo'.context name = some b := by
  intro claimed
  let x : Ident := ⟨"x", ⟨33, 1⟩⟩
  let f : Ident := ⟨"f", ⟨9, 1⟩⟩
  let returning : Statement := .returnValues [.atom (.identifier x) ⟨60, 1⟩] ⟨52, 9⟩
  let routine : Routine := .mk none [] [returning] ⟨43, 22⟩
  let body : List Statement :=
    [.declaration x (.atom (.boolean true) ⟨37, 1⟩) ⟨24, 14⟩,
      .assignment (.mk (.name f) (.function routine) ⟨39, 26⟩)]
  let s : Session :=
    { program := ⟨[.declaration f (.atom .null ⟨13, 4⟩) ⟨0, 17⟩, .block body ⟨18, 51⟩,
        .expression (.call (.atom (.identifier f) ⟨70, 1⟩) [] ⟨70, 3⟩)], ⟨0, 73⟩⟩
      context := 0 }
  let w : World := { contexts := #[.root], terminal := .captured [] }
  let block : Context :=
    { Context.root with locals := [⟨"x", 2, .boolean true⟩, ⟨"f", 1, .null⟩], level := 2 }
  let outside : Context := { Context.root with locals := [⟨"f", 1, .function 0 ⟨routine, 0⟩⟩] }
  let mo : Moment := .enter (.expression (.function routine)) 0 { w with contexts := #[block] }
  let mo' : Moment := .enter (.expression (.atom (.identifier x) ⟨60, 1⟩)) 1
    { w with contexts := #[outside, { Context.inside 0 with calls := [[]] }], identities := 1 }
  have call : s.LaterCall 9 w 31 65 mo mo' ⟨routine, 0⟩ :=
    ⟨by decide, by unfold mo; cbv, by unfold mo'; cbv, ⟨0, by unfold mo'; cbv⟩, by decide⟩
  have free : ¬ routine.Binds "x" := by
    have only : ∀ p t, routine.passage.Has p t → t = returning := by
      intro p t has
      induction has with
      | direct member => exact List.mem_singleton.1 member
      | inner _ member same =>
        subst same
        cases member
    rintro (parameter | ⟨p, t, has, own⟩)
    · cases parameter
    · cases only p t has
      cases own
  have found := claimed s w (by decide) rfl 9 31 65 mo mo' _ "x" ⟨0, 1⟩ call (by decide) free
  revert found
  decide

end Session

end Roteiro
