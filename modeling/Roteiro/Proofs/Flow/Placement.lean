import Roteiro.Proofs.Eval.Congruence
import Roteiro.Proofs.Flow.Structured
import Roteiro.Proofs.World.Closures

/-!
Well placed scripts. To break or continue a loop is well placed in the body of a loop of the same
routine, and to return is well placed in a routine. Where all the routines in a world are well
placed, a well placed statement never fails for want of a loop or a call (`Structured.Sound.all`):
its place tells what the structured evaluator is given, and every function that can be called was
read from the world or made from a part of the script.
-/

namespace Roteiro

open Eval

variable {α β : Type}

/-! ### places of statements -/

/-- Whether a statement goes round: its inner statements are the body of a loop. -/
def Statement.repeats : Statement → Bool
  | .whileLoop _ _ _ | .countLoop _ _ _ _ _ _ | .eachLoop _ _ _ _ _ => true
  | _ => false

/-- The place of the inner statements of a statement. -/
def Place.inner (p : Place) (s : Statement) : Place :=
  if s.repeats then p.loop else p

mutual

/-- Whether all routines in an expression are well placed. -/
def Expression.wellPlaced : Expression → Bool
  | .atom _ _ => true
  | .array items _ => Expression.wellPlacedAll items
  | .dictionary entries _ => Entry.wellPlacedAll entries
  | .function routine => routine.wellPlaced
  | .negate operand _ => operand.wellPlaced
  | .binary _ left right _ => left.wellPlaced && right.wellPlaced
  | .call callee arguments _ => callee.wellPlaced && Expression.wellPlacedAll arguments
  | .property object key _ => object.wellPlaced && key.wellPlaced

def Expression.wellPlacedAll : List Expression → Bool
  | [] => true
  | e :: es => e.wellPlaced && Expression.wellPlacedAll es

def Expression.wellPlacedOption : Option Expression → Bool
  | some e => e.wellPlaced
  | none => true

def Entry.wellPlaced : Entry → Bool
  | .mk key value => key.wellPlaced && value.wellPlaced

def Entry.wellPlacedAll : List Entry → Bool
  | [] => true
  | e :: es => e.wellPlaced && Entry.wellPlacedAll es

def Key.wellPlaced : Key → Bool
  | .name _ => true
  | .computed e => e.wellPlaced

/-- Whether the body of a routine is well placed. -/
def Routine.wellPlaced : Routine → Bool
  | .mk _ _ body _ => Statement.wellPlacedAll body .routine

def Target.wellPlaced : Target → Bool
  | .name _ => true
  | .property object key => object.wellPlaced && key.wellPlaced

def Assignment.wellPlaced : Assignment → Bool
  | .mk target value _ => target.wellPlaced && value.wellPlaced

def Assignment.wellPlacedOption : Option Assignment → Bool
  | some a => a.wellPlaced
  | none => true

def Branch.wellPlaced : Branch → Place → Bool
  | .mk condition body, p => condition.wellPlaced && Statement.wellPlacedAll body p

def Branch.wellPlacedAll : List Branch → Place → Bool
  | [], _ => true
  | b :: bs, p => b.wellPlaced p && Branch.wellPlacedAll bs p

/-- Whether a statement is well placed at a place, and all that stands in it. -/
def Statement.wellPlaced : Statement → Place → Bool
  | .declaration _ value _, _ => value.wellPlaced
  | .assignment a, _ => a.wellPlaced
  | .expression e, _ => e.wellPlaced
  | .block body _, p => Statement.wellPlacedAll body p
  | .whileLoop condition body _, p => condition.wellPlaced && Statement.wellPlacedAll body p.loop
  | .countLoop _ first limit step body _, p =>
    Expression.wellPlacedOption first && Expression.wellPlacedOption limit &&
      Assignment.wellPlacedOption step && Statement.wellPlacedAll body p.loop
  | .eachLoop _ _ collection body _, p =>
    collection.wellPlaced && Statement.wellPlacedAll body p.loop
  | .function routine, _ => routine.wellPlaced
  | .conditional branches otherwise _, p =>
    Branch.wellPlacedAll branches p && Statement.wellPlacedOption otherwise p
  | .breakLoop _, p => p.inLoop
  | .continueLoop _, p => p.inLoop
  | .returnValues values _, p => Expression.wellPlacedAll values && p.inCall

def Statement.wellPlacedAll : List Statement → Place → Bool
  | [], _ => true
  | s :: ss, p => s.wellPlaced p && Statement.wellPlacedAll ss p

def Statement.wellPlacedOption : Option (List Statement) → Place → Bool
  | some body, p => Statement.wellPlacedAll body p
  | none, _ => true

end

/-- Whether a script is well placed. -/
def Program.wellPlaced (p : Program) : Bool :=
  Statement.wellPlacedAll p.statements .outside

/-! ### parts of what is well placed -/

theorem Expression.wellPlacedAll_iff {es : List Expression} :
    wellPlacedAll es = true ↔ ∀ e ∈ es, e.wellPlaced = true := by
  induction es with
  | nil => simp [wellPlacedAll]
  | cons e es ih => simp [wellPlacedAll, ih]

theorem Statement.wellPlacedAll_iff {ss : List Statement} {p : Place} :
    wellPlacedAll ss p = true ↔ ∀ s ∈ ss, s.wellPlaced p = true := by
  induction ss with
  | nil => simp [wellPlacedAll]
  | cons s ss ih => simp [wellPlacedAll, ih]

theorem Entry.wellPlacedAll_iff {es : List Entry} :
    wellPlacedAll es = true ↔ ∀ e ∈ es, e.wellPlaced = true := by
  induction es with
  | nil => simp [wellPlacedAll]
  | cons e es ih => simp [wellPlacedAll, ih]

theorem Branch.wellPlacedAll_iff {bs : List Branch} {p : Place} :
    wellPlacedAll bs p = true ↔ ∀ b ∈ bs, b.wellPlaced p = true := by
  induction bs with
  | nil => simp [wellPlacedAll]
  | cons b bs ih => simp [wellPlacedAll, ih]

theorem Entry.wellPlaced_part {entry : Entry} (h : entry.wellPlaced = true) {e : Expression}
    (member : e ∈ entry.parts) : e.wellPlaced = true := by
  obtain ⟨key, value⟩ := entry
  rw [Entry.wellPlaced, Bool.and_eq_true] at h
  rcases List.mem_append.1 member with inKey | inValue
  · cases key with
    | name _ => cases inKey
    | computed k =>
      obtain rfl := List.mem_singleton.1 inKey
      exact h.1
  · obtain rfl := List.mem_singleton.1 inValue
    exact h.2

theorem Assignment.wellPlaced_part {a : Assignment} (h : a.wellPlaced = true) {e : Expression}
    (member : e ∈ a.parts) : e.wellPlaced = true := by
  obtain ⟨target, value, span⟩ := a
  rw [Assignment.wellPlaced, Bool.and_eq_true] at h
  rcases List.mem_append.1 member with inTarget | inValue
  · cases target with
    | name _ => cases inTarget
    | property object key =>
      have both := h.1
      rw [Target.wellPlaced, Bool.and_eq_true] at both
      rcases List.mem_cons.1 inTarget with rfl | inKey
      · exact both.1
      · obtain rfl := List.mem_singleton.1 inKey
        exact both.2
  · obtain rfl := List.mem_singleton.1 inValue
    exact h.2

/-- The operands of a well placed expression are well placed. -/
theorem Expression.wellPlaced_part {e d : Expression} (h : e.wellPlaced = true)
    (member : d ∈ e.parts) : d.wellPlaced = true := by
  cases e with
  | atom _ _ => cases member
  | function _ => cases member
  | array items span =>
    rw [Expression.wellPlaced, wellPlacedAll_iff] at h
    exact h d member
  | dictionary entries span =>
    rw [Expression.wellPlaced, Entry.wellPlacedAll_iff] at h
    obtain ⟨entry, inside, part⟩ := List.mem_flatMap.1 member
    exact Entry.wellPlaced_part (h entry inside) part
  | negate operand span =>
    obtain rfl := List.mem_singleton.1 member
    rw [Expression.wellPlaced] at h
    exact h
  | binary op left right span =>
    rw [Expression.wellPlaced, Bool.and_eq_true] at h
    rcases List.mem_cons.1 member with rfl | member
    · exact h.1
    · obtain rfl := List.mem_singleton.1 member
      exact h.2
  | call callee arguments span =>
    rw [Expression.wellPlaced, Bool.and_eq_true, wellPlacedAll_iff] at h
    rcases List.mem_cons.1 member with rfl | member
    · exact h.1
    · exact h.2 d member
  | property object key span =>
    rw [Expression.wellPlaced, Bool.and_eq_true] at h
    rcases List.mem_cons.1 member with rfl | member
    · exact h.1
    · obtain rfl := List.mem_singleton.1 member
      exact h.2

theorem Expression.wellPlacedOption_iff {o : Option Expression} :
    wellPlacedOption o = true ↔ ∀ e ∈ o, e.wellPlaced = true := by
  cases o <;> simp [wellPlacedOption]

theorem Assignment.wellPlacedOption_iff {o : Option Assignment} :
    wellPlacedOption o = true ↔ ∀ a ∈ o, a.wellPlaced = true := by
  cases o <;> simp [wellPlacedOption]

/-- The expressions of a well placed statement are well placed. -/
theorem Statement.wellPlaced_part {s : Statement} {p : Place} (h : s.wellPlaced p = true)
    {e : Expression} (member : e ∈ s.parts) : e.wellPlaced = true := by
  cases s with
  | declaration name value span =>
    obtain rfl := List.mem_singleton.1 member
    rw [Statement.wellPlaced] at h
    exact h
  | assignment a =>
    rw [Statement.wellPlaced] at h
    exact Assignment.wellPlaced_part h member
  | expression e =>
    obtain rfl := List.mem_singleton.1 member
    rw [Statement.wellPlaced] at h
    exact h
  | whileLoop condition body span =>
    obtain rfl := List.mem_singleton.1 member
    rw [Statement.wellPlaced, Bool.and_eq_true] at h
    exact h.1
  | countLoop counter first limit step body span =>
    simp only [Statement.wellPlaced, Bool.and_eq_true, Expression.wellPlacedOption_iff,
      Assignment.wellPlacedOption_iff] at h
    obtain ⟨⟨⟨hf, hl⟩, hs⟩, -⟩ := h
    rcases List.mem_append.1 member with member | inStep
    · rcases List.mem_append.1 member with inFirst | inLimit
      · exact hf e (Option.mem_toList.1 inFirst)
      · exact hl e (Option.mem_toList.1 inLimit)
    · obtain ⟨a, there, part⟩ := List.mem_flatMap.1 inStep
      exact Assignment.wellPlaced_part (hs a (Option.mem_toList.1 there)) part
  | eachLoop key value collection body span =>
    obtain rfl := List.mem_singleton.1 member
    rw [Statement.wellPlaced, Bool.and_eq_true] at h
    exact h.1
  | conditional branches otherwise span =>
    rw [Statement.wellPlaced, Bool.and_eq_true, Branch.wellPlacedAll_iff] at h
    obtain ⟨⟨condition, body⟩, inside, rfl⟩ := List.mem_map.1 member
    have both := h.1 _ inside
    rw [Branch.wellPlaced, Bool.and_eq_true] at both
    exact both.1
  | returnValues values span =>
    rw [Statement.wellPlaced, Bool.and_eq_true, Expression.wellPlacedAll_iff] at h
    exact h.1 e member
  | block _ _ => cases member
  | function _ => cases member
  | breakLoop _ => cases member
  | continueLoop _ => cases member

/-- The inner statements of a well placed statement are well placed where they stand. -/
theorem Statement.wellPlaced_inner {s t : Statement} {p : Place} (h : s.wellPlaced p = true)
    (member : t ∈ s.inner) : t.wellPlaced (p.inner s) = true := by
  cases s with
  | block body span =>
    rw [Statement.wellPlaced, wellPlacedAll_iff] at h
    exact h t member
  | whileLoop condition body span =>
    rw [Statement.wellPlaced, Bool.and_eq_true, wellPlacedAll_iff] at h
    exact h.2 t member
  | countLoop counter first limit step body span =>
    rw [Statement.wellPlaced, Bool.and_eq_true, wellPlacedAll_iff] at h
    exact h.2 t member
  | eachLoop key value collection body span =>
    rw [Statement.wellPlaced, Bool.and_eq_true, wellPlacedAll_iff] at h
    exact h.2 t member
  | conditional branches otherwise span =>
    rw [Statement.wellPlaced, Bool.and_eq_true, Branch.wellPlacedAll_iff] at h
    rcases List.mem_append.1 member with inBranch | inRest
    · obtain ⟨⟨condition, body⟩, inside, there⟩ := List.mem_flatMap.1 inBranch
      have both := h.1 _ inside
      rw [Branch.wellPlaced, Bool.and_eq_true, wellPlacedAll_iff] at both
      exact both.2 t there
    · cases otherwise with
      | none => cases inRest
      | some body =>
        have rest := h.2
        rw [wellPlacedOption, wellPlacedAll_iff] at rest
        exact rest t inRest
  | _ => cases member

end Roteiro
