import Roteiro.Scope.Context

/-!
Chains of contexts. A name is looked up in a context and then in its parents; the first context
that has the name decides, and in it the newest local. A parent is always older than its children,
so every chain ends.
-/

namespace Roteiro

/-- All contexts of a world, oldest first. -/
abbrev Contexts := Array Context

/-- A resolved name: the context that has it, and the slot in that context. -/
structure Binding where
  context : ContextId
  slot : Nat
  deriving Repr, DecidableEq

namespace Contexts

/-- The context with a given id. -/
def context (cs : Contexts) (id : ContextId) : Context :=
  cs[id]?.getD .root

/-- Changes a context. -/
def update (cs : Contexts) (id : ContextId) (f : Context → Context) : Contexts :=
  cs.modify id f

/-- Resolves a name along at most `fuel` contexts. -/
def resolveWithin (cs : Contexts) (name : String) : Nat → ContextId → Option Binding
  | 0, _ => none
  | fuel + 1, id =>
    match (cs.context id).slot? name with
    | some slot => some ⟨id, slot⟩
    | none =>
      match (cs.context id).parent with
      | some parent => cs.resolveWithin name fuel parent
      | none => none

/-- Resolves a name from a context. No chain is longer than the number of contexts. -/
def resolve? (cs : Contexts) (id : ContextId) (name : String) : Option Binding :=
  cs.resolveWithin name cs.size id

/-- The value of a resolved name. -/
def read (cs : Contexts) (b : Binding) : Value :=
  (cs.context b.context).valueAt b.slot

/-- Overwrites the value of a resolved name. -/
def write (cs : Contexts) (b : Binding) (value : Value) : Contexts :=
  cs.update b.context (·.write b.slot value)

/-- The value of a name. -/
def lookup (cs : Contexts) (id : ContextId) (name : String) : Except RuntimeFault Value :=
  match cs.resolve? id name with
  | some b => .ok (cs.read b)
  | none => .error (.unknownName name)

/-- Overwrites the value of a name, which must be known. -/
def assign (cs : Contexts) (id : ContextId) (name : String) (value : Value) :
    Except RuntimeFault Contexts :=
  match cs.resolve? id name with
  | some b => .ok (cs.write b value)
  | none => .error (.notDefined name)

/-- Defines a name in a context. -/
def define (cs : Contexts) (id : ContextId) (name : String) (value : Value) :
    Except RuntimeFault Contexts :=
  ((cs.context id).define name value).map fun c => cs.setIfInBounds id c

end Contexts

end Roteiro
