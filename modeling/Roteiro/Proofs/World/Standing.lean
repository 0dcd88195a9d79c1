import Roteiro.Proofs.Scope.Laws
import Roteiro.Proofs.Scope.Shape

/-!
Worlds in which statements can run. A world stands for a context if the context is there, has a
scope open, and knows some names. Whatever statements do in the context, the world stands afterwards
(`World.Stands.after`), and in a world that stands the names can be read and set
(`World.Stands.lookup`, `World.Stands.assign`). In a scope that was just entered, any name can be
defined (`World.Fresh.define`), and then any other (`World.Lone.define`).
-/

namespace Roteiro

/-! ### names that stay known -/

theorem Context.isSome_slot?_iff {a : Context} {name : String} :
    (a.slot? name).isSome ↔ name ∈ a.names.map Prod.fst := by
  unfold slot? names
  rw [List.map_map, Option.isSome_iff_ne_none, Ne, slotIn_eq_none_iff]
  simp

/-- A name that is known stays known where contexts keep their parents and their names. -/
theorem Contexts.isSome_resolve?_mono {cs cs' : Contexts} (size : cs.size ≤ cs'.size)
    (kept : ∀ i < cs.size, (cs'.context i).parent = (cs.context i).parent ∧
      (cs.context i).names ⊆ (cs'.context i).names)
    {name : String} {i : ContextId} (known : (cs.resolve? i name).isSome) :
    (cs'.resolve? i name).isSome := by
  obtain ⟨b, found⟩ := Option.isSome_iff_exists.1 known
  unfold resolve? at found ⊢
  suffices within : ∀ n i, cs.resolveWithin name n i = some b →
      ∃ b', cs'.resolveWithin name n i = some b' by
    obtain ⟨b', found'⟩ := within cs.size i found
    exact Option.isSome_iff_exists.2 ⟨b', resolveWithin_mono found' size⟩
  intro n
  induction n with
  | zero => exact fun i found => nomatch found
  | succ n ih =>
    intro i found
    have live : i < cs.size := by
      by_contra beyond
      rw [resolveWithin_of_root (by rw [context_of_size_le (Nat.le_of_not_lt beyond)]; rfl)
        (by rw [context_of_size_le (Nat.le_of_not_lt beyond)]; rfl)] at found
      cases found
    obtain ⟨parent, names⟩ := kept i live
    cases here' : (cs'.context i).slot? name with
    | some slot => exact ⟨_, resolveWithin_of_slot here' n⟩
    | none =>
      obtain ⟨slot, here, -⟩ | ⟨p, -, above, found⟩ := resolveWithin_cases found
      · have member := Context.isSome_slot?_iff.1 (Option.isSome_iff_exists.2 ⟨slot, here⟩)
        have stays := Context.isSome_slot?_iff.2 (List.map_subset Prod.fst names member)
        rw [here'] at stays
        cases stays
      · obtain ⟨b', found'⟩ := ih p found
        exact ⟨b', (resolveWithin_of_parent here' (parent.trans above) n).trans found'⟩

namespace World

/-- A world in which statements can run in the context `c` and names are known from there. -/
structure Stands (w : World) (c : ContextId) (names : List String) : Prop where
  live : c < w.contexts.size
  ready : (w.context c).Ready
  known : ∀ name ∈ names, w.knows c name

/-- A world that stands, with no name yet on the current level of the context. -/
structure Fresh (w : World) (c : ContextId) (names : List String) : Prop
    extends Stands w c names where
  below : ∀ p ∈ (w.context c).names, p.2 < (w.context c).level

variable {w w' : World} {c : ContextId} {names : List String} {name : String}

theorem Stands.mono {fewer : List String} (h : w.Stands c names) (sub : fewer ⊆ names) :
    w.Stands c fewer :=
  ⟨h.live, h.ready, fun name member => h.known name (sub member)⟩

theorem Stands.cons (h : w.Stands c names) (known : w.knows c name) :
    w.Stands c (name :: names) :=
  ⟨h.live, h.ready, List.forall_mem_cons.2 ⟨known, h.known⟩⟩

/-- The names of the context itself are known. -/
theorem knows_of_mem (live : c < w.contexts.size)
    (member : name ∈ (w.context c).names.map Prod.fst) : w.knows c name := by
  obtain ⟨slot, found⟩ := Option.isSome_iff_exists.1 (Context.isSome_slot?_iff.2 member)
  obtain ⟨n, size⟩ := Nat.exists_eq_succ_of_ne_zero (Nat.ne_zero_of_lt live)
  unfold knows Contexts.resolve?
  rw [size, Contexts.resolveWithin_of_slot found]
  rfl

/-- What is known stays known when the other contexts keep their shapes. -/
theorem knows_of_at {P : Context → Context → Prop} (h : At c P w w')
    (parent : (w'.context c).parent = (w.context c).parent)
    (sub : (w.context c).names ⊆ (w'.context c).names) (known : w.knows c name) :
    w'.knows c name := by
  refine Contexts.isSome_resolve?_mono h.size (fun i hi => ?_) known
  by_cases here : i = c
  · subst here
    exact ⟨parent, sub⟩
  · obtain ⟨same, -, -, -, parent⟩ := Shape.mk.inj (h.others i hi here)
    exact ⟨parent, fun p member => same ▸ member⟩

/-- **Statements leave a world standing.** -/
theorem Stands.after (h : w.Stands c names) (ran : At c Context.Grown w w') : w'.Stands c names where
  live := Nat.lt_of_lt_of_le ran.live ran.size
  ready := h.ready.of_grown ran.here
  known name member := by
    obtain ⟨added, grown, -⟩ := ran.here.names h.ready
    refine knows_of_at ran ran.here.parent ?_ (h.known name member)
    rw [grown]
    exact List.subset_append_right _ _

theorem Stands.enterScope (h : w.Stands c names) (free : (w.context c).full = false) :
    (w.enterScope c).Fresh c names := by
  have entered : At c (fun a b => b = a.enter) w (w.enterScope c) := .update h.live _
  refine ⟨⟨Nat.lt_of_lt_of_le entered.live entered.size, ?_, fun name member => ?_⟩, ?_⟩
  · rw [entered.here]
    exact h.ready.enter free
  · refine knows_of_at entered ?_ ?_ (h.known name member)
    · rw [entered.here]
      rfl
    · rw [entered.here]
      exact List.Subset.refl _
  · rw [entered.here, Context.level_enter free]
    exact fun p member => Nat.lt_succ_of_le (h.ready.below p member)

theorem Stands.pushLoop (h : w.Stands c names) :
    (w.update c Context.pushLoop).Stands c names := by
  have opened : At c (fun a b => b = a.pushLoop) w (w.update c Context.pushLoop) := .update h.live _
  refine ⟨Nat.lt_of_lt_of_le opened.live opened.size, ?_, fun name member => ?_⟩
  · rw [opened.here]
    exact ⟨h.ready.base, h.ready.below⟩
  · refine knows_of_at opened ?_ ?_ (h.known name member)
    · rw [opened.here]
      rfl
    · rw [opened.here]
      exact List.Subset.refl _

theorem newChild_live (w : World) (parent : ContextId) :
    w.contexts.size < (w.newChild parent).2.contexts.size := by
  unfold newChild addContext
  simp

/-- A new context with a call frame stands. -/
theorem stands_newCall (w : World) (parent : ContextId) :
    ((w.newChild parent).2.update w.contexts.size Context.pushCall).Stands w.contexts.size [] := by
  have opened : At w.contexts.size (fun a b => b = a.pushCall) (w.newChild parent).2 _ :=
    .update (w.newChild_live parent) Context.pushCall
  refine ⟨Nat.lt_of_lt_of_le opened.live opened.size, ?_, List.forall_mem_nil _⟩
  have made : (w.newChild parent).2.context w.contexts.size = .inside parent :=
    Contexts.context_push_self _
  rw [opened.here, made]
  exact ⟨Nat.le_refl _, List.forall_mem_nil _⟩

/-! ### frames -/

/-- A world that stands, in which a frame was just opened by `push`. -/
def Opened (w : World) (push : Context → Context) (c : ContextId) (names : List String) : Prop :=
  ∃ v : World, c < v.contexts.size ∧ w = v.update c push ∧ w.Stands c names

/-- A world that statements have left after a frame was opened by `push`. -/
def Within (w : World) (push : Context → Context) (c : ContextId) : Prop :=
  ∃ v : World, c < v.contexts.size ∧ At c Context.Grown (v.update c push) w

theorem Within.popLoop (h : w.Within Context.pushLoop c) :
    ∃ frame w', World.popLoop c w = (.ok frame, w') := by
  obtain ⟨v, live, ran⟩ := h
  have opened : At c (fun a b => b = a.pushLoop) v (v.update c Context.pushLoop) := .update live _
  have grown := ran.here
  rw [opened.here] at grown
  obtain ⟨frame, d, popped, -⟩ := grown.popLoop
  unfold World.popLoop
  rw [popped]
  exact ⟨frame, _, rfl⟩

theorem Within.popCall (h : w.Within Context.pushCall c) :
    ∃ returned w', World.popCall c w = (.ok returned, w') := by
  obtain ⟨v, live, ran⟩ := h
  have opened : At c (fun a b => b = a.pushCall) v (v.update c Context.pushCall) := .update live _
  have grown := ran.here
  rw [opened.here] at grown
  obtain ⟨returned, d, popped, -⟩ := grown.popCall
  unfold World.popCall
  rw [popped]
  exact ⟨returned, _, rfl⟩

/-! ### effects that do not fail -/

theorem Stands.lookup (h : w.Stands c names) (member : name ∈ names) :
    ∃ v, World.lookup c name w = (.ok v, w) := by
  obtain ⟨b, resolved⟩ := Option.isSome_iff_exists.1 (h.known name member)
  exact ⟨_, congrArg (·, w) (Contexts.lookup_of_resolve? resolved)⟩

theorem Stands.assign (h : w.Stands c names) (member : name ∈ names) (v : Value) :
    ∃ w', World.assign c name v w = (.ok (), w') := by
  obtain ⟨b, resolved⟩ := Option.isSome_iff_exists.1 (h.known name member)
  exact ⟨_, assign_of_resolve? resolved v⟩

/-- A name that was defined is known from then on. -/
theorem Stands.after_define (h : w.Stands c names) {v : Value}
    (done : World.define c name v w = (.ok (), w')) :
    At c (Context.Adds (some name)) w w' ∧ w'.Stands c (name :: names) := by
  obtain ⟨-, added⟩ | ⟨fault, failed⟩ := define_cases h.live name v
  · rw [done] at added
    have stands := h.after (added.mono Context.Adds.grown)
    refine ⟨added, stands.cons (knows_of_mem stands.live ?_)⟩
    rw [added.here.names h.ready]
    exact List.mem_cons_self
  · rw [done] at failed
    cases failed

/-- A name cannot be defined twice on one level. -/
theorem Stands.define_again (h : w.Stands c names) {v : Value}
    (done : World.define c name v w = (.ok (), w')) (v' : Value) :
    World.define c name v' w' = (.error (.alreadyDefined name), w') := by
  obtain ⟨added, -⟩ := h.after_define done
  have label : (name, (w'.context c).level) ∈ (w'.context c).names := by
    rw [added.here.names h.ready, added.here.level]
    exact List.mem_cons_self
  obtain ⟨l, member, same⟩ := List.mem_map.1 label
  obtain ⟨named, level⟩ := Prod.mk.inj same
  unfold World.define onContexts
  dsimp only
  rw [Contexts.define_of_old (Context.definedHere_iff.2 ⟨l, member, named, level⟩)]

/-- A name that is new on the current level can be defined. -/
theorem define_of_new (new : ∀ p ∈ (w.context c).names, p.1 = name → p.2 ≠ (w.context c).level)
    (v : Value) : ∃ w', World.define c name v w = (.ok (), w') := by
  have absent : ¬(w.contexts.context c).definedHere name = true := by
    rw [Context.definedHere_iff]
    rintro ⟨l, member, label, level⟩
    exact new (l.name, l.level) (List.mem_map.2 ⟨l, member, rfl⟩) label level
  unfold World.define onContexts
  dsimp only
  rw [Contexts.define_of_new absent]
  exact ⟨_, rfl⟩

/-- The first name in a scope that was just entered can be defined. -/
theorem Fresh.define (h : w.Fresh c names) (name : String) (v : Value) :
    ∃ w', World.define c name v w = (.ok (), w') :=
  define_of_new (fun p member _ => Nat.ne_of_lt (h.below p member)) v

/-- The only name on the current level of the context is `name`. -/
def Lone (w : World) (c : ContextId) (name : String) : Prop :=
  ∀ p ∈ (w.context c).names, p.2 = (w.context c).level → p.1 = name

theorem Fresh.lone (h : w.Fresh c names) {v : Value}
    (done : World.define c name v w = (.ok (), w')) : w'.Lone c name := by
  obtain ⟨added, -⟩ := h.toStands.after_define done
  intro p member current
  rw [added.here.names h.ready] at member
  rcases List.mem_cons.1 member with rfl | old
  · rfl
  · have := h.below p old
    have := added.here.level
    omega

/-- A second name can be defined after the first if it is another. -/
theorem Lone.define {first second : String} (lone : w.Lone c first) (other : first ≠ second)
    (v : Value) : ∃ w', World.define c second v w = (.ok (), w') :=
  define_of_new (fun p member label current => other ((lone p member current).symm.trans label)) v

end World

end Roteiro
