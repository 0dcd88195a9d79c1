import Roteiro.Eval.Observer
import Roteiro.Proofs.Tree.Parts

/-!
Which nodes are evaluated for which. A node *holds* those that an evaluator may turn to while it is
at work on it: the statements of a script, the parts and the inner statements of a statement, the
operands of an expression, and the statements of a function that is called. A node and one that it
holds never have the same key (`Node.Holds.key_ne`), so whoever keeps a node in mind by its key can
tell it from the next one.
-/

namespace Roteiro

/-! ### parts -/

namespace Key

/-- The expressions that are evaluated for a key. -/
def parts : Key → List Expression
  | name _ => []
  | computed e => [e]

end Key

/-- The expressions that are evaluated for an entry. -/
def Entry.parts : Entry → List Expression
  | .mk key value => key.parts ++ [value]

/-- The expressions that are evaluated for an expression. -/
def Expression.parts : Expression → List Expression
  | .atom _ _ => []
  | .array items _ => items
  | .dictionary entries _ => entries.flatMap Entry.parts
  | .function _ => []
  | .negate operand _ => [operand]
  | .binary _ left right _ => [left, right]
  | .call callee arguments _ => callee :: arguments
  | .property object key _ => [object, key]

/-- The expressions that are evaluated for a target. -/
def Target.parts : Target → List Expression
  | .name _ => []
  | .property object key => [object, key]

/-- The expressions that are evaluated for an assignment. -/
def Assignment.parts (a : Assignment) : List Expression :=
  a.target.parts ++ [a.value]

namespace Branch

def condition : Branch → Expression
  | mk condition _ => condition

def body : Branch → List Statement
  | mk _ body => body

end Branch

namespace Statement

/-- The expressions that are evaluated for a statement. -/
def parts : Statement → List Expression
  | declaration _ value _ => [value]
  | assignment a => a.parts
  | expression e => [e]
  | whileLoop condition _ _ => [condition]
  | countLoop _ first limit step _ _ =>
    first.toList ++ limit.toList ++ step.toList.flatMap Assignment.parts
  | eachLoop _ _ collection _ _ => [collection]
  | conditional branches _ _ => branches.map Branch.condition
  | returnValues values _ => values
  | block _ _ | function _ | breakLoop _ | continueLoop _ => []

/-- The statements that are carried out for a statement. -/
def inner : Statement → List Statement
  | block body _ => body
  | whileLoop _ body _ => body
  | countLoop _ _ _ _ body _ => body
  | eachLoop _ _ _ body _ => body
  | conditional branches otherwise _ => branches.flatMap Branch.body ++ otherwise.getD []
  | _ => []

end Statement

/-! ### parts of trees -/

/-- Parts of trees that come with their components. -/
def Part.Closed (has : Part → Prop) : Prop :=
  ∀ p, has p → ∀ q ∈ p.components, has q

namespace Part.Closed

variable {has : Part → Prop} (closed : Closed has)

include closed

/-- What is evaluated for an expression is one of the parts. -/
theorem operand {e d : Expression} (h : has (.expression e)) (member : d ∈ e.parts) :
    has (.expression d) := by
  refine closed _ h _ ?_
  have mapped := List.mem_map_of_mem (f := Part.expression) member
  cases e with
  | atom _ _ => cases member
  | function _ => cases member
  | dictionary entries _ =>
    obtain ⟨⟨key, value⟩, there, inside⟩ := List.mem_flatMap.1 member
    refine List.mem_flatMap.2 ⟨_, there, ?_⟩
    have mapped := List.mem_map_of_mem (f := Part.expression) inside
    cases key with
    | name _ => exact List.mem_cons_of_mem _ mapped
    | computed _ => exact mapped
  | array _ _ => exact mapped
  | negate _ _ => exact mapped
  | binary _ _ _ _ => exact mapped
  | call _ _ _ => exact mapped
  | property _ _ _ => exact mapped

/-- What is evaluated for an assignment is one of the parts. -/
theorem assigned {a : Assignment} {e : Expression} (h : has (.assignment a))
    (member : e ∈ a.parts) : has (.expression e) := by
  refine closed _ h _ ?_
  obtain ⟨target, value, span⟩ := a
  have mapped := List.mem_map_of_mem (f := Part.expression) member
  cases target with
  | name _ => exact List.mem_append_right _ mapped
  | property _ _ => exact mapped

/-- What is evaluated for a statement is one of the parts. -/
theorem part {s : Statement} {e : Expression} (h : has (.statement s)) (member : e ∈ s.parts) :
    has (.expression e) := by
  have inside := closed _ h
  have mapped := List.mem_map_of_mem (f := Part.expression) member
  cases s with
  | declaration _ _ _ => exact inside _ (List.mem_cons_of_mem _ mapped)
  | assignment a => exact closed.assigned (inside _ (List.mem_singleton_self _)) member
  | expression _ => exact inside _ mapped
  | whileLoop _ _ _ => exact inside _ (List.mem_append_left _ mapped)
  | countLoop counter first limit step body _ =>
    obtain ⟨-, rest⟩ := List.forall_mem_cons.1 inside
    obtain ⟨hf, rest⟩ := List.forall_mem_append.1 rest
    obtain ⟨hl, rest⟩ := List.forall_mem_append.1 rest
    obtain ⟨hs, -⟩ := List.forall_mem_append.1 rest
    rcases List.mem_append.1 member with there | there
    · rcases List.mem_append.1 there with there | there
      · exact hf _ (List.mem_map_of_mem there)
      · exact hl _ (List.mem_map_of_mem there)
    · obtain ⟨a, stepped, there⟩ := List.mem_flatMap.1 there
      exact closed.assigned (hs _ (List.mem_map_of_mem stepped)) there
  | eachLoop key value _ _ _ =>
    exact inside _ (List.mem_cons_of_mem _ (List.mem_cons_of_mem _ (List.mem_append_left _ mapped)))
  | conditional branches otherwise _ =>
    obtain ⟨⟨condition, body⟩, there, rfl⟩ := List.mem_map.1 member
    exact inside _ (List.mem_append_left _ (List.mem_flatMap.2 ⟨_, there, List.mem_cons_self⟩))
  | returnValues _ _ => exact inside _ mapped
  | _ => cases member

/-- What is carried out for a statement is one of the parts. -/
theorem inner {s t : Statement} (h : has (.statement s)) (member : t ∈ s.inner) :
    has (.statement t) := by
  refine closed _ h _ ?_
  have mapped := List.mem_map_of_mem (f := Part.statement) member
  cases s with
  | block _ _ => exact mapped
  | whileLoop _ _ _ => exact List.mem_cons_of_mem _ mapped
  | countLoop _ _ _ _ _ _ =>
    exact List.mem_cons_of_mem _ (List.mem_append_right _ (List.mem_append_right _
      (List.mem_append_right _ mapped)))
  | eachLoop _ _ _ _ _ =>
    exact List.mem_cons_of_mem _ (List.mem_cons_of_mem _ (List.mem_cons_of_mem _ mapped))
  | conditional branches otherwise _ =>
    rcases List.mem_append.1 member with there | there
    · obtain ⟨⟨condition, body⟩, branch, inside⟩ := List.mem_flatMap.1 there
      exact List.mem_append_left _ (List.mem_flatMap.2 ⟨_, branch,
        List.mem_cons_of_mem _ (List.mem_map_of_mem inside)⟩)
    · exact List.mem_append_right _ (List.mem_map_of_mem there)
  | _ => cases member

end Part.Closed

/-! ### holding -/

namespace Node

/-- The second node may be evaluated directly for the first one. -/
inductive Holds : Node → Node → Prop
  | script {p : Program} {s : Statement} (h : s ∈ p.statements) : Holds (program p) (statement s)
  | part {s : Statement} {e : Expression} (h : e ∈ s.parts) : Holds (statement s) (expression e)
  | inner {s t : Statement} (h : t ∈ s.inner) : Holds (statement s) (statement t)
  | operand {e d : Expression} (h : d ∈ e.parts) : Holds (expression e) (expression d)
  /-- A call carries out the statements of the function that is called. -/
  | called {callee : Expression} {arguments : List Expression} {span : Span} (s : Statement) :
    Holds (expression (.call callee arguments span)) (statement s)

/-- How often a node is shown to an observer. -/
def captures : Node → Nat
  | program _ | statement _ => 1
  | expression e => e.captures

theorem captures_pos (node : Node) : 0 < node.captures := by
  cases node with
  | program _ => exact Nat.one_pos
  | statement _ => exact Nat.one_pos
  | expression e =>
    change 0 < e.captures
    unfold Expression.captures
    repeat' split
    all_goals omega

end Node

/-! ### weights -/

theorem Expression.weight_le_all {e : Expression} {es : List Expression} (h : e ∈ es) :
    e.weight ≤ weightAll es := by
  induction es with
  | nil => cases h
  | cons d es ih =>
    rw [weightAll]
    rcases List.mem_cons.1 h with rfl | h
    · omega
    · have := ih h
      omega

theorem Statement.weight_le_all {s : Statement} {ss : List Statement} (h : s ∈ ss) :
    s.weight ≤ weightAll ss := by
  induction ss with
  | nil => cases h
  | cons t ss ih =>
    rw [weightAll]
    rcases List.mem_cons.1 h with rfl | h
    · omega
    · have := ih h
      omega

theorem Entry.weight_le_all {e : Expression} {es : List Entry} (h : e ∈ es.flatMap Entry.parts) :
    e.weight ≤ weightAll es := by
  induction es with
  | nil => cases h
  | cons d es ih =>
    obtain ⟨key, value⟩ := d
    rw [weightAll, Entry.weight]
    rcases List.mem_append.1 (List.flatMap_cons ▸ h) with h | h
    · rcases List.mem_append.1 h with h | h
      · cases key with
        | name _ => cases h
        | computed k =>
          obtain rfl := List.mem_singleton.1 h
          rw [Key.weight]
          omega
      · obtain rfl := List.mem_singleton.1 h
        omega
    · have := ih h
      omega

theorem Branch.weight_le_all {s : Statement} {bs : List Branch} (h : s ∈ bs.flatMap Branch.body) :
    s.weight ≤ weightAll bs := by
  induction bs with
  | nil => cases h
  | cons b bs ih =>
    obtain ⟨condition, body⟩ := b
    rw [weightAll, Branch.weight]
    rcases List.mem_append.1 (List.flatMap_cons ▸ h) with h | h
    · have : s.weight ≤ Statement.weightAll body := Statement.weight_le_all h
      omega
    · have := ih h
      omega

/-- An operand is lighter than its expression. -/
theorem Expression.weight_lt_of_part {e d : Expression} (h : d ∈ e.parts) : d.weight < e.weight := by
  cases e with
  | atom _ _ => cases h
  | function _ => cases h
  | array items span =>
    have : d.weight ≤ weightAll items := weight_le_all h
    simp only [weight]
    omega
  | dictionary entries span =>
    have : d.weight ≤ Entry.weightAll entries := Entry.weight_le_all h
    simp only [weight]
    omega
  | negate operand span =>
    obtain rfl := List.mem_singleton.1 h
    simp only [weight]
    omega
  | binary op left right span =>
    simp only [weight]
    rcases List.mem_cons.1 h with rfl | h
    · omega
    · obtain rfl := List.mem_singleton.1 h
      omega
  | call callee arguments span =>
    simp only [weight]
    rcases List.mem_cons.1 h with rfl | h
    · omega
    · have := weight_le_all h
      omega
  | property object key span =>
    simp only [weight]
    rcases List.mem_cons.1 h with rfl | h
    · omega
    · obtain rfl := List.mem_singleton.1 h
      omega

/-- An inner statement is lighter than the one around it. -/
theorem Statement.weight_lt_of_inner {s t : Statement} (h : t ∈ s.inner) : t.weight < s.weight := by
  cases s with
  | block body span =>
    have : t.weight ≤ weightAll body := weight_le_all h
    simp only [weight]
    omega
  | whileLoop condition body span =>
    have : t.weight ≤ weightAll body := weight_le_all h
    simp only [weight]
    omega
  | countLoop counter first limit step body span =>
    have : t.weight ≤ weightAll body := weight_le_all h
    simp only [weight]
    omega
  | eachLoop key value collection body span =>
    have : t.weight ≤ weightAll body := weight_le_all h
    simp only [weight]
    omega
  | conditional branches otherwise span =>
    rcases List.mem_append.1 h with h | h
    · have := Branch.weight_le_all h
      cases otherwise <;> simp only [weight] <;> omega
    · cases otherwise with
      | none => cases h
      | some body =>
        have : t.weight ≤ weightAll body := weight_le_all h
        simp only [weight]
        omega
  | _ => cases h

/-- **A node and one that it holds differ in their keys.** Where they are of one sort, the one inside
is lighter. -/
theorem Node.Holds.key_ne {a b : Node} (h : a.Holds b) : b.key ≠ a.key := by
  intro same
  cases h with
  | script _ => cases congrArg NodeKey.sort same
  | part _ => cases congrArg NodeKey.sort same
  | called _ => cases congrArg NodeKey.sort same
  | inner h =>
    exact absurd (congrArg NodeKey.weight same) (Nat.ne_of_lt (Statement.weight_lt_of_inner h))
  | operand h =>
    exact absurd (congrArg NodeKey.weight same) (Nat.ne_of_lt (Expression.weight_lt_of_part h))

end Roteiro
