import Roteiro.Tree.Basic

/-!
Trees without their spans. Two trees with the same bare tree differ only in where they were read
from.
-/

namespace Roteiro

/-- The span that stands for all others. -/
def Span.nowhere : Span := ⟨0, 0⟩

def Ident.bare (name : Ident) : Ident :=
  ⟨name.text, .nowhere⟩

def Atom.bare : Atom → Atom
  | .identifier name => .identifier name.bare
  | atom => atom

mutual

/-- An expression without its spans. -/
@[simp] def Expression.bare : Expression → Expression
  | .atom a _ => .atom a.bare .nowhere
  | .array items _ => .array (Expression.bareAll items) .nowhere
  | .dictionary entries _ => .dictionary (Entry.bareAll entries) .nowhere
  | .function routine => .function routine.bare
  | .negate operand _ => .negate operand.bare .nowhere
  | .binary op left right _ => .binary op left.bare right.bare .nowhere
  | .call callee arguments _ => .call callee.bare (Expression.bareAll arguments) .nowhere
  | .property object key _ => .property object.bare key.bare .nowhere

@[simp] def Expression.bareAll : List Expression → List Expression
  | [] => []
  | e :: es => e.bare :: Expression.bareAll es

def Expression.bareOption : Option Expression → Option Expression
  | some e => some e.bare
  | none => none

@[simp] def Entry.bare : Entry → Entry
  | .mk key value => .mk key.bare value.bare

@[simp] def Entry.bareAll : List Entry → List Entry
  | [] => []
  | e :: es => e.bare :: Entry.bareAll es

@[simp] def Key.bare : Key → Key
  | .name name => .name name.bare
  | .computed key => .computed key.bare

def Routine.bare : Routine → Routine
  | .mk name parameters body _ =>
    .mk (name.map Ident.bare) (parameters.map Ident.bare) (Statement.bareAll body) .nowhere

def Target.bare : Target → Target
  | .name name => .name name.bare
  | .property object key => .property object.bare key.bare

def Assignment.bare : Assignment → Assignment
  | .mk target value _ => .mk target.bare value.bare .nowhere

def Assignment.bareOption : Option Assignment → Option Assignment
  | some a => some a.bare
  | none => none

def Branch.bare : Branch → Branch
  | .mk condition body => .mk condition.bare (Statement.bareAll body)

def Branch.bareAll : List Branch → List Branch
  | [] => []
  | b :: bs => b.bare :: Branch.bareAll bs

/-- A statement without its spans. -/
def Statement.bare : Statement → Statement
  | .declaration name value _ => .declaration name.bare value.bare .nowhere
  | .assignment a => .assignment a.bare
  | .expression e => .expression e.bare
  | .block body _ => .block (Statement.bareAll body) .nowhere
  | .whileLoop condition body _ => .whileLoop condition.bare (Statement.bareAll body) .nowhere
  | .countLoop counter first limit step body _ =>
    .countLoop counter.bare (Expression.bareOption first) (Expression.bareOption limit)
      (Assignment.bareOption step) (Statement.bareAll body) .nowhere
  | .eachLoop key value collection body _ =>
    .eachLoop key.bare value.bare collection.bare (Statement.bareAll body) .nowhere
  | .function routine => .function routine.bare
  | .conditional branches otherwise _ =>
    .conditional (Branch.bareAll branches) (Statement.bareOption otherwise) .nowhere
  | .breakLoop _ => .breakLoop .nowhere
  | .continueLoop _ => .continueLoop .nowhere
  | .returnValues values _ => .returnValues (Expression.bareAll values) .nowhere

def Statement.bareAll : List Statement → List Statement
  | [] => []
  | s :: ss => s.bare :: Statement.bareAll ss

def Statement.bareOption : Option (List Statement) → Option (List Statement)
  | some body => some (Statement.bareAll body)
  | none => none

end

end Roteiro
