import Mathlib.Data.List.TakeWhile
import Roteiro.Proofs.Flow.Placement
import Roteiro.Proofs.Scope.Shape
import Roteiro.Proofs.Trace.Chronicle

/-!
Tasks. A task is a node under evaluation, with the values of what was finished for it; each is done
for the next one. The tasks at a moment tell where in a script the run stands: in which loops
(`Place.within`), and in the body of which function (`Task.callee`). A run is *coherent* if at every
moment its context is as the tasks say, and if between two moments the names of a context either
become more or become fewer (`Moment.Next`).
-/

namespace Roteiro

open World

/-! ### tasks -/

/-- A node under evaluation, and the values of what was finished for it. -/
structure Task where
  node : Node
  values : List Value

/-- A value was finished for the innermost of some tasks. -/
def Task.finish (value : Value) : List Task → List Task
  | task :: rest => ⟨task.node, task.values ++ [value]⟩ :: rest
  | [] => []

namespace Moment

/-- The tasks after a moment, innermost first, from those before. -/
def resume (tasks : List Task) : Moment → List Task
  | enter node _ _ => ⟨node, []⟩ :: tasks
  | leave value _ _ => Task.finish value (tasks.drop 1)

/-- The tasks after some moments, innermost first. -/
def tasks (ms : List Moment) : List Task :=
  ms.foldl resume []

/-- The tasks at a moment, with the one that is begun or finished at it, from those before. -/
def stack (tasks : List Task) : Moment → List Task
  | enter node _ _ => ⟨node, []⟩ :: tasks
  | leave _ _ _ => tasks

@[simp] theorem tasks_concat (ms : List Moment) (m : Moment) :
    tasks (ms ++ [m]) = m.resume (tasks ms) := by
  simp [tasks]

end Moment

namespace Place

/-- Where a statement stands that is carried out for the innermost of these tasks. -/
def within : List Task → Place
  | ⟨.statement s, _⟩ :: rest => (within rest).inner s
  | ⟨.expression _, _⟩ :: _ => .routine
  | _ => .outside

/-- Where the inner statements of the innermost statement among these tasks stand. -/
def around : List Task → Place
  | ⟨.expression _, _⟩ :: rest => around rest
  | tasks => within tasks

theorem inLoop_inner {p : Place} (s : Statement) (h : p.inLoop = true) :
    (p.inner s).inLoop = true := by
  unfold inner
  split
  · rfl
  · exact h

theorem inCall_inner (p : Place) (s : Statement) : (p.inner s).inCall = p.inCall := by
  unfold inner
  split
  · rfl
  · rfl

end Place

/-- The innermost task is a statement that is not well placed where it stands, and all that it needs
is there: the error it has to end with. -/
inductive Misplaced : List Task → RuntimeError → Prop
  | breakLoop {span : Span} {values : List Value} {rest : List Task} :
    (Place.within rest).inLoop = false →
    Misplaced (⟨.statement (.breakLoop span), values⟩ :: rest) ⟨.noLoop, span⟩
  | continueLoop {span : Span} {values : List Value} {rest : List Task} :
    (Place.within rest).inLoop = false →
    Misplaced (⟨.statement (.continueLoop span), values⟩ :: rest) ⟨.noLoop, span⟩
  | returnValues {es : List Expression} {span : Span} {values : List Value} {rest : List Task} :
    values.length = es.length → (Place.within rest).inCall = false →
    Misplaced (⟨.statement (.returnValues es span), values⟩ :: rest) ⟨.noFunction, span⟩

namespace Task

/-- The function in whose body the tasks stand: the first value that was finished for the expression
that carries out a statement. -/
def callee : List Task → Option Value
  | ⟨.statement _, _⟩ :: ⟨.expression _, values⟩ :: _ => values.head?
  | ⟨.program _, _⟩ :: _ => none
  | _ :: rest => callee rest
  | [] => none

/-- The innermost statement, and where it stands. -/
def position : List Task → Option (Place × Statement)
  | ⟨.expression _, _⟩ :: rest => position rest
  | ⟨.statement s, _⟩ :: rest => some (.within rest, s)
  | _ => none

end Task

/-! ### passages -/

/-- Some statements that stand at one place: those of a script, or of a routine. -/
structure Passage where
  place : Place
  statements : List Statement

/-- A statement stands in a passage: as one of its statements, or inside one that does. -/
inductive Passage.Has (t : Passage) : Place → Statement → Prop
  | direct {s : Statement} (member : s ∈ t.statements) : Has t t.place s
  | inner {p : Place} {s s' : Statement} (outer : Has t p s) (member : s' ∈ s.inner) :
    Has t (p.inner s) s'

/-- The script itself. -/
def Program.passage (p : Program) : Passage := ⟨.outside, p.statements⟩

/-- The body of a routine. -/
def Routine.passage (r : Routine) : Passage := ⟨.routine, r.body⟩

/-- The body of a function. -/
def Value.passage? : Value → Option Passage
  | .function _ f => some f.routine.passage
  | _ => none

/-- The passage in which the tasks stand: the body of the callee, or else the script. -/
def Task.passage : List Task → Option Passage
  | ⟨.statement _, _⟩ :: ⟨.expression _, values⟩ :: _ => values.head?.bind Value.passage?
  | ⟨.program p, _⟩ :: _ => some p.passage
  | _ :: rest => passage rest
  | [] => none

theorem Task.passage_of_callee {T : List Task} {id : Identity} {f : Closure}
    (h : callee T = some (.function id f)) : passage T = some f.routine.passage := by
  fun_induction callee T with
  | case1 => simp [passage, h, Value.passage?]
  | case2 => cases h
  | case3 => simp_all [passage]
  | case4 => cases h

/-- The innermost statement stands where the tasks say, in the passage of the tasks. -/
def Task.Placed (T : List Task) : Prop :=
  ∀ p s, position T = some (p, s) → ∃ t, passage T = some t ∧ t.Has p s

/-- The values of the innermost task do not matter. -/
theorem Task.same_values (N : Node) (us vs : List Value) (T : List Task) :
    callee (⟨N, us⟩ :: T) = callee (⟨N, vs⟩ :: T) ∧
      passage (⟨N, us⟩ :: T) = passage (⟨N, vs⟩ :: T) ∧
      position (⟨N, us⟩ :: T) = position (⟨N, vs⟩ :: T) := by
  cases N with
  | program p => exact ⟨rfl, rfl, rfl⟩
  | expression e => exact ⟨rfl, rfl, rfl⟩
  | statement s => rcases T with _ | ⟨⟨p | t | e, ws⟩, rest⟩ <;> exact ⟨rfl, rfl, rfl⟩

theorem Task.Placed.values {N : Node} {us vs : List Value} {T : List Task}
    (h : Placed (⟨N, us⟩ :: T)) : Placed (⟨N, vs⟩ :: T) := by
  obtain ⟨-, passage, position⟩ := same_values N us vs T
  intro p s hs
  rw [← passage]
  exact h p s (position.trans hs)

/-! ### names of a routine -/

/-- The names that a statement itself defines, its inner statements apart. -/
def Statement.defines : Statement → List String
  | .declaration name _ _ => [name.text]
  | .function routine => (routine.name.map Ident.text).toList
  | .countLoop counter _ _ _ _ _ => [counter.text]
  | .eachLoop key value _ _ _ => [key.text, value.text]
  | _ => []

/-- The names that a call of a routine may define in its context. -/
def Routine.Binds (r : Routine) (name : String) : Prop :=
  name ∈ r.parameters.map Ident.text ∨ ∃ p s, r.passage.Has p s ∧ name ∈ s.defines

/-- A context as the calls of a function make it. -/
structure Closure.Owns (f : Closure) (a : Context) : Prop where
  parent : a.parent = some f.context
  names : ∀ p ∈ a.names, f.routine.Binds p.1

/-! ### contexts at work -/

/-- A context in which the innermost of some tasks is done. -/
structure Task.Hosts (T : List Task) (a : Context) : Prop where
  loops : a.loops ≠ [] → (Place.around T).inLoop = true
  calls : a.calls ≠ [] → (Place.around T).inCall = true
  owner : ∀ {id f}, callee T = some (.function id f) → f.Owns a
  placed : Placed T

namespace Task.Hosts

variable {T : List Task} {a b : Context} {N : Node} {us vs : List Value}

/-- The values of the innermost task do not matter. -/
theorem values (h : Hosts (⟨N, us⟩ :: T) a) : Hosts (⟨N, vs⟩ :: T) a := by
  have callee := (same_values N us vs T).1
  refine ⟨?_, ?_, fun hf => h.owner (callee.trans hf), h.placed.values⟩
  · cases N <;> exact h.loops
  · cases N <;> exact h.calls

theorem expression (e : Expression) (h : Hosts T a) : Hosts (⟨.expression e, vs⟩ :: T) a :=
  ⟨h.loops, h.calls, h.owner, h.placed⟩

theorem of_expression {e : Expression} (h : Hosts (⟨.expression e, vs⟩ :: T) a) : Hosts T a :=
  ⟨h.loops, h.calls, h.owner, h.placed⟩

/-- An inner statement is done where the one around it is. -/
theorem inner {s t : Statement} (h : Hosts (⟨.statement s, us⟩ :: T) a) (member : t ∈ s.inner) :
    Hosts (⟨.statement t, []⟩ :: ⟨.statement s, vs⟩ :: T) a := by
  have outer : Hosts (⟨.statement s, vs⟩ :: T) a := h.values
  refine ⟨fun hl => Place.inLoop_inner t (outer.loops hl), fun hc => ?_, outer.owner, fun _ _ hs => ?_⟩
  · change ((Place.within (⟨.statement s, vs⟩ :: T)).inner t).inCall = true
    rw [Place.inCall_inner]
    exact outer.calls hc
  · cases hs
    obtain ⟨t, passage, has⟩ := outer.placed _ _ rfl
    exact ⟨t, passage, .inner has member⟩

/-- The statements of a script are done where the script is. -/
theorem script {p : Program} {s : Statement} (h : Hosts (⟨.program p, us⟩ :: T) a)
    (member : s ∈ p.statements) : Hosts (⟨.statement s, []⟩ :: ⟨.program p, vs⟩ :: T) a := by
  refine ⟨fun hl => absurd (h.loops hl) Bool.false_ne_true,
    fun hc => absurd (h.calls hc) Bool.false_ne_true,
    fun hf => absurd hf (Option.some_ne_none _).symm, fun _ _ hs => ?_⟩
  cases hs
  exact ⟨_, rfl, .direct member⟩

/-- The statements of a function are done in a context of the function. -/
theorem called {f : Closure} {id : Identity} {e : Expression} {s : Statement} (loops : a.loops = [])
    (owns : f.Owns a) (member : s ∈ f.routine.body) :
    Hosts (⟨.statement s, []⟩ :: ⟨.expression e, .function id f :: vs⟩ :: T) a := by
  refine ⟨fun hl => absurd loops hl, fun _ => ?_, fun hf => ?_, fun _ _ hs => ?_⟩
  · change (Place.inner .routine s).inCall = true
    rw [Place.inCall_inner]
    rfl
  · cases hf
    exact owns
  · cases hs
    exact ⟨_, rfl, .direct member⟩

/-- What is asked of the context goes on to hold with the same parent, no more names, and frames only
where there were some. -/
theorem mono (h : Hosts T a) (parent : b.parent = a.parent) (names : ∀ p ∈ b.names, p ∈ a.names)
    (loops : b.loops ≠ [] → a.loops ≠ []) (calls : b.calls ≠ [] → a.calls ≠ []) : Hosts T b where
  loops hl := h.loops (loops hl)
  calls hc := h.calls (calls hc)
  owner hf := ⟨parent.trans (h.owner hf).parent, fun p hp => (h.owner hf).names p (names p hp)⟩
  placed := h.placed

theorem shape (h : Hosts T a) (same : b.shape = a.shape) : Hosts T b := by
  obtain ⟨names, -, loops, calls, parent⟩ := Shape.mk.inj same
  exact h.mono parent (by rw [names]; exact fun _ => id) (by rw [loops]; exact id)
    (by rw [calls]; exact id)

end Task.Hosts

/-! ### names between two moments -/

namespace Context

/-- Names were added, if any. -/
def Gains (a b : Context) : Prop :=
  ∃ added, b.names = added ++ a.names

/-- Names were dropped, if any, and none of the base level. -/
def Loses (a b : Context) : Prop :=
  ∃ dropped, a.names = dropped ++ b.names ∧ ∀ p ∈ dropped, baseLevel < p.2

/-- Names were only added, or else, where not all of them have to be fresh, only dropped. -/
structure Near (fresh : Bool) (a b : Context) : Prop where
  parent : b.parent = a.parent
  names : Gains a b ∨ fresh = false ∧ Loses a b

namespace Near

variable {fresh : Bool} {a b c : Context}

theorem refl (fresh : Bool) (a : Context) : Near fresh a a := ⟨rfl, .inl ⟨[], rfl⟩⟩

theorem stale (h : Near fresh a b) : Near false a b :=
  ⟨h.parent, h.names.imp_right fun lost => ⟨rfl, lost.2⟩⟩

theorem same (h : Near fresh a b) (parent : c.parent = b.parent) (names : c.names = b.names) :
    Near fresh a c := by
  refine ⟨parent.trans h.parent, ?_⟩
  unfold Gains Loses
  rw [names]
  exact h.names

theorem define (h : Near true a b) {name : String} {v : Value} (defined : b.define name v = .ok c) :
    Near true a c := by
  obtain ⟨added, names⟩ := h.names.resolve_right fun lost => nomatch lost.1
  rw [names_of_define defined]
  refine ⟨h.parent, .inl ⟨(name, b.level) :: added, ?_⟩⟩
  change (name, b.level) :: b.names = _
  rw [names]
  rfl

/-- Leaving a scope drops names above the base level. -/
theorem leave (h : Near fresh a b) : Near false a b.leave := by
  have left : Loses b b.leave := by
    rw [Loses, names_leave]
    split
    · next above =>
      refine ⟨b.names.takeWhile fun p => p.2 == b.level, List.takeWhile_append_dropWhile.symm, ?_⟩
      intro p member
      have level := List.mem_takeWhile_imp member
      rw [beq_iff_eq] at level
      omega
    · exact ⟨[], rfl, by simp⟩
  obtain ⟨dropped, before, above⟩ := left
  refine ⟨h.parent, ?_⟩
  rcases h.names with ⟨added, names⟩ | ⟨-, lost, names, high⟩
  · -- Both lists are ends of the names before leaving, so one is an end of the other.
    rw [before] at names
    rcases List.append_eq_append_iff.1 names with ⟨more, -, rest⟩ | ⟨more, all, rest⟩
    · exact .inl ⟨more, rest⟩
    · refine .inr ⟨rfl, more, rest, fun p member => above p ?_⟩
      rw [all]
      exact List.mem_append_right _ member
  · refine .inr ⟨rfl, lost ++ dropped, by rw [names, before, List.append_assoc], fun p member => ?_⟩
    rcases List.mem_append.1 member with old | new
    · exact high p old
    · exact above p new

end Near

end Context

namespace World

/-- The contexts that were there are near to what they were. -/
structure Near (fresh : Bool) (u w : World) : Prop where
  size : u.contexts.size ≤ w.contexts.size
  contexts : ∀ i < u.contexts.size, Context.Near fresh (u.context i) (w.context i)

namespace Near

variable {fresh fresh' : Bool} {u w w' : World}

theorem refl (fresh : Bool) (w : World) : Near fresh w w := ⟨Nat.le_refl _, fun _ _ => .refl fresh _⟩

theorem stale (h : Near fresh u w) : Near false u w := ⟨h.size, fun i hi => (h.contexts i hi).stale⟩

theorem shape (h : Near fresh u w) (same : SameShape w w') : Near fresh u w' := by
  refine ⟨Nat.le_trans h.size same.size, fun i hi => ?_⟩
  obtain ⟨names, -, -, -, parent⟩ := Shape.mk.inj (same.shape i (Nat.lt_of_lt_of_le hi h.size))
  exact (h.contexts i hi).same parent names

/-- One context was changed. -/
theorem at_context {c : ContextId} {P : Context → Context → Prop} (h : Near fresh u w)
    (k : At c P w w') (stale : ∀ {a b}, Context.Near fresh a b → Context.Near fresh' a b)
    (here : c < u.contexts.size → Context.Near fresh' (u.context c) (w'.context c)) :
    Near fresh' u w' := by
  refine ⟨Nat.le_trans h.size k.size, fun i hi => ?_⟩
  by_cases same : i = c
  · subst same
    exact here hi
  · obtain ⟨names, -, -, -, parent⟩ :=
      Shape.mk.inj (k.others i (Nat.lt_of_lt_of_le hi h.size) same)
    exact (stale (h.contexts i hi)).same parent names

end Near

end World

/-! ### coherent runs -/

/-- What may be seen next after some moments: all that was misplaced has failed, the names have not
changed back and forth, and the context is as the tasks say. -/
structure Moment.Next (ms : List Moment) (mo : Moment) : Prop where
  placed : ∀ e, ¬ Misplaced (tasks ms) e
  near : ∀ before ∈ ms.getLast?, Near false before.world mo.world
  live : mo.context < mo.world.contexts.size
  hosts : Task.Hosts (mo.stack (tasks ms)) (mo.world.context mo.context)

/-- Each moment may be seen after those before it. -/
inductive Moment.Coherent : List Moment → Prop
  | nil : Coherent []
  | add {ms : List Moment} {mo : Moment} (earlier : Coherent ms) (next : Next ms mo) :
    Coherent (ms ++ [mo])

namespace Moment.Coherent

/-- The first moments of a coherent run are coherent. -/
theorem of_append {ms later : List Moment} (h : Coherent (ms ++ later)) : Coherent ms := by
  generalize all : ms ++ later = whole at h
  induction h generalizing later with
  | nil =>
    rw [(List.append_eq_nil_iff.1 all).1]
    exact .nil
  | add earlier next ih =>
    rcases later.eq_nil_or_concat with rfl | ⟨front, last, rfl⟩
    · rw [List.append_nil] at all
      rw [all]
      exact .add earlier next
    · rw [List.concat_eq_append, ← List.append_assoc] at all
      exact ih (List.append_inj' all rfl).1

theorem next {ms later : List Moment} {mo : Moment} (h : Coherent (ms ++ mo :: later)) :
    Next ms mo := by
  rw [List.append_cons] at h
  generalize all : ms ++ [mo] = whole at h
  cases h.of_append with
  | nil => simp at all
  | add _ next =>
    obtain ⟨rfl, same⟩ := List.append_inj' all rfl
    cases same
    exact next

/-- Every task that is a statement stands where the tasks below it say. -/
theorem placed {ms : List Moment} (h : Coherent ms) {T : List Task} (below : T <:+ tasks ms) :
    Task.Placed T := by
  induction h generalizing T with
  | nil =>
    rw [List.suffix_nil.1 below]
    exact fun _ _ hs => nomatch hs
  | @add ms mo _ next ih =>
    rw [tasks_concat] at below
    cases mo with
    | enter node c w =>
      rcases List.suffix_cons_iff.1 below with rfl | deeper
      · exact next.hosts.placed
      · exact ih deeper
    | leave value c w =>
      -- The task that goes on was there before, with a value less.
      have before : (tasks ms).drop 1 <:+ tasks ms := List.drop_suffix 1 _
      change T <:+ Task.finish value ((tasks ms).drop 1) at below
      generalize (tasks ms).drop 1 = rest at before below
      cases rest with
      | nil => exact ih (below.trans before)
      | cons task rest =>
        rcases List.suffix_cons_iff.1 below with rfl | deeper
        · exact (ih before).values
        · exact ih (deeper.trans ((List.suffix_cons _ _).trans before))

end Moment.Coherent

end Roteiro
