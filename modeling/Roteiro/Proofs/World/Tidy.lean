import Roteiro.Proofs.Eval.Congruence
import Roteiro.Proofs.Value.Dictionary

/-!
Tidy heaps: every dictionary in them holds rows, so the links between its keys lead from the first to
the last and come to an end. All that a script can do to a world keeps its heap tidy
(`Effect.Simple.tidy`), and an iteration over a tidy heap that nobody changes runs out
(`Heap.Tidy.runsOut`).
-/

namespace Roteiro

variable {α : Type}

/-! ### heaps -/

/-- A collection whose links come to an end. -/
def Cell.Tidy : Cell → Prop
  | array _ => True
  | dictionary d => ∃ rows, d.Holds rows

namespace Heap

/-- A heap of tidy collections. -/
def Tidy (h : Heap) : Prop :=
  ∀ cell ∈ h, cell.Tidy

namespace Tidy

variable {h : Heap}

theorem entries (tidy : h.Tidy) (a : Address) : ∃ rows, (h.entries a).Holds rows := by
  unfold Heap.entries
  split
  · next found => exact tidy _ (Array.mem_of_getElem? found)
  · exact ⟨[], .empty⟩

theorem allocate (tidy : h.Tidy) {cell : Cell} (new : cell.Tidy) : (h.allocate cell).2.Tidy := by
  intro other member
  rcases Array.mem_push.1 member with old | rfl
  · exact tidy other old
  · exact new

theorem set (tidy : h.Tidy) (a : Address) {cell : Cell} (new : cell.Tidy) :
    Tidy (h.setIfInBounds a cell) := by
  intro other member
  rcases Array.mem_or_eq_of_mem_setIfInBounds member with old | rfl
  · exact tidy other old
  · exact new

theorem setItems (tidy : h.Tidy) (a : Address) (items : Items) : (h.setItems a items).Tidy :=
  tidy.set a trivial

/-- Writing an entry keeps the links of the dictionary in order. -/
theorem setEntries (tidy : h.Tidy) (a : Address) (key : String) (v : Value) :
    (h.setEntries a ((h.entries a).set key v)).Tidy := by
  obtain ⟨rows, holds⟩ := tidy.entries a
  obtain ⟨rows', holds', _⟩ := holds.set key v
  exact tidy.set a ⟨rows', holds'⟩

end Tidy

/-! ### iteration -/

/-- An iteration over a heap that nobody changes comes to an end. -/
inductive RunsOut (h : Heap) : Iteration → Prop
  | step {it : Iteration} (later : ∀ entry, (h.advance it).1 = some entry → RunsOut h (h.advance it).2) :
    RunsOut h it

theorem RunsOut.of_none {h : Heap} {it : Iteration} (none_left : (h.advance it).1 = none) :
    h.RunsOut it := by
  refine .step fun entry found => ?_
  rw [none_left] at found
  cases found

theorem runsOut_array (h : Heap) (a : Address) (index : Nat) : h.RunsOut (.array a index) := by
  -- The number of items after the index.
  generalize left : (h.items a).size - index = n
  induction n generalizing index with
  | zero =>
    refine .of_none ?_
    have past : (h.items a)[index]? = none := Array.getElem?_eq_none (by omega)
    unfold advance
    dsimp only
    rw [past]
  | succ n ih =>
    have inside : index < (h.items a).size := by omega
    refine .step fun entry _ => ?_
    have next : (h.advance (.array a index)).2 = .array a (index + 1) := by
      unfold advance
      dsimp only
      rw [Array.getElem?_eq_getElem inside]
    rw [next]
    exact ih (index + 1) (by omega)

/-- An iteration over a dictionary goes through the rows that are left. -/
theorem runsOut_rows {h : Heap} {a : Address} {rows : List Dictionary.Row}
    (holds : (h.entries a).Holds rows) {before rest : List (String × Value)}
    (split : Dictionary.listed rows = before ++ rest) :
    h.RunsOut (.dictionary a (rest.map Prod.fst).head?) := by
  induction rest generalizing before with
  | nil => exact .of_none rfl
  | cons e rest ih =>
    obtain ⟨key, value⟩ := e
    refine .step fun entry _ => ?_
    have next : (h.advance (.dictionary a (some key))).2 =
        .dictionary a (rest.map Prod.fst).head? := by
      unfold advance
      dsimp only
      rw [holds.entryAndNext? split]
    change RunsOut h (h.advance (.dictionary a (some key))).2
    rw [next]
    have rejoined : Dictionary.listed rows = (before ++ [(key, value)]) ++ rest := by
      simpa using split
    exact ih rejoined

/-- **An iteration over a tidy heap that nobody changes comes to an end.** -/
theorem Tidy.runsOut {h : Heap} (tidy : h.Tidy) (it : Iteration) : h.RunsOut it := by
  cases it with
  | array a index => exact runsOut_array h a index
  | dictionary a next =>
    cases next with
    | none => exact .of_none rfl
    | some key =>
      obtain ⟨rows, holds⟩ := tidy.entries a
      by_cases known : key ∈ (Dictionary.listed rows).map Prod.fst
      · obtain ⟨⟨key, value⟩, member, rfl⟩ := List.mem_map.1 known
        obtain ⟨before, rest, split⟩ := List.append_of_mem member
        exact runsOut_rows holds split
      · refine .of_none ?_
        have gone : (h.entries a).entryAndNext? key = none := by
          unfold Dictionary.entryAndNext?
          rw [holds.no_entry known]
          rfl
        unfold advance
        dsimp only
        rw [gone]

end Heap

/-! ### worlds -/

namespace World

/-- A world with a tidy heap. -/
def Tidy (w : World) : Prop :=
  w.heap.Tidy

theorem tidy_around (terminal : Terminal) (dice : Dice) (seed : Nat) :
    Tidy { World.around terminal with dice, seed } := by
  intro cell member
  simp [around] at member

theorem heap_onContexts (f : Contexts → Except RuntimeFault Contexts) (w : World) :
    (World.onContexts f w).2.heap = w.heap := by
  unfold World.onContexts
  split
  · rfl
  · rfl

theorem Tidy.onContexts {w : World} (tidy : w.Tidy)
    (f : Contexts → Except RuntimeFault Contexts) : (World.onContexts f w).2.Tidy := by
  unfold Tidy
  rw [heap_onContexts]
  exact tidy

theorem Tidy.property {w : World} (tidy : w.Tidy) (x k : Value) : (World.property x k w).2.Tidy := by
  unfold World.property
  cases x with
  | array a =>
    dsimp only
    cases k.string?.bind ArrayMethod.ofName? with
    | some method => exact tidy
    | none =>
      cases k.index? with
      | some index => exact tidy
      | none => exact tidy
  | dictionary a =>
    dsimp only
    cases k.string?.bind DictionaryMethod.ofName? with
    | some method => exact tidy
    | none => exact tidy
  | _ => exact tidy

theorem Tidy.writeItem {w : World} (tidy : w.Tidy) (a : Address) (index : Nat) (v : Value) :
    (World.writeItem a index v w).2.Tidy := by
  unfold World.writeItem
  split
  · exact tidy.setItems a _
  · exact tidy

theorem Tidy.setProperty {w : World} (tidy : w.Tidy) (x k v : Value) :
    (World.setProperty x k v w).2.Tidy := by
  unfold World.setProperty
  split
  · split
    · exact tidy.writeItem _ _ v
    · exact tidy
  · exact tidy.setEntries _ _ v
  · exact tidy

theorem Tidy.callArray {w : World} (tidy : w.Tidy) (a : Address) (method : ArrayMethod)
    (vs : List Value) : (World.callArray a method vs w).2.Tidy := by
  unfold World.callArray
  cases method with
  | push => exact tidy.setItems a _
  | length => exact tidy
  | get =>
    dsimp only
    split
    · exact tidy
    · exact tidy
  | set =>
    dsimp only
    split
    · exact tidy
    · exact tidy.writeItem a _ _
  | remove =>
    dsimp only
    split
    · exact tidy
    · exact tidy.setItems a _

theorem heap_random (vs : List Value) (w : World) : (w.random vs).2.heap = w.heap := by
  obtain ⟨contexts, heap, terminal, identities, dice, seed⟩ := w
  unfold World.random
  cases randomRange vs with
  | error fault => rfl
  | ok bounds => rfl

theorem Tidy.callBuiltin {w : World} (tidy : w.Tidy) (b : Builtin) (vs : List Value) :
    (World.callBuiltin b vs w).2.Tidy := by
  unfold World.callBuiltin
  cases b with
  | math f => exact tidy
  | random =>
    unfold Tidy
    rw [heap_random]
    exact tidy
  | console f =>
    cases f with
    | write => exact tidy
    | read => exact tidy
    | clear => exact tidy
  | sleep =>
    unfold World.sleep
    dsimp only
    split
    · exact tidy
    · split
      · exact tidy
      · exact tidy
  | array a method => exact tidy.callArray a method vs
  | dictionary a method =>
    cases method with
    | get => exact tidy
    | set => exact tidy.setEntries a _ _
    | length => exact tidy

/-- A new dictionary is made by writes, so its links are in order. -/
theorem Tidy.newDictionary {w : World} (tidy : w.Tidy) (l : List (String × Value)) :
    (w.newDictionary (.ofList l)).2.Tidy := by
  obtain ⟨rows, holds, _⟩ := Dictionary.Holds.empty.writes l
  have new : Cell.Tidy (.dictionary (.ofList l)) := ⟨rows, holds⟩
  exact tidy.allocate new

theorem Tidy.newArray {w : World} (tidy : w.Tidy) (items : Items) :
    (w.newArray items).2.Tidy := by
  have new : Cell.Tidy (.array items) := trivial
  exact tidy.allocate new

theorem heap_newBuiltins (builtins : List Builtin) (w : World) :
    (w.newBuiltins builtins).2.heap = w.heap := by
  induction builtins generalizing w with
  | nil => rfl
  | cons b rest ih => exact ih (w.newBuiltin b).2

theorem Tidy.newLibrary {w : World} (tidy : w.Tidy) (name : String)
    (constants : List (String × Value)) (builtins : List Builtin) :
    (w.newLibrary name constants builtins).2.Tidy := by
  have kept : (w.newBuiltins builtins).2.Tidy := by
    unfold Tidy
    rw [heap_newBuiltins]
    exact tidy
  exact kept.newDictionary _

theorem Tidy.newGlobal {w : World} (tidy : w.Tidy) : w.newGlobal.2.Tidy := by
  unfold World.newGlobal
  have math := tidy.newLibrary "math" [("PI", .number pi), ("TAU", .number (2 * pi))]
    (MathFunction.all.map Builtin.math ++ [.random])
  have console := math.newLibrary "console" [] (ConsoleFunction.all.map Builtin.console)
  exact console.newLibrary "sleep" [] [.sleep]

end World

/-- **What is done for an expression or a statement keeps a world tidy.** -/
theorem Effect.Simple.tidy {f : Effect α} (h : f.Simple) {w : World} (tidy : w.Tidy) :
    (f w).2.Tidy := by
  cases h with
  | plain h =>
    cases h with
    | lookup c name => exact tidy
    | assign c name v => exact tidy.onContexts _
    | property x k => exact tidy.property x k
    | setProperty x k v => exact tidy.setProperty x k v
    | callBuiltin b vs => exact tidy.callBuiltin b vs
  | define c name v => exact tidy.onContexts _
  | markBreak c => exact tidy.onContexts _
  | markContinue c => exact tidy.onContexts _
  | pushReturns c vs => exact tidy.onContexts _
  | iterate v => exact tidy

/-- To close what was opened keeps the heap. -/
theorem Effect.Closing.heap_eq {f : Effect α} (h : f.Closing) (w : World) :
    (f w).2.heap = w.heap := by
  cases h with
  | scope c => rfl
  | round c =>
    change (World.popLoop c w).2.heap = w.heap
    unfold World.popLoop
    split
    · rfl
    · rfl
  | call c =>
    unfold World.popCall
    split
    · rfl
    · rfl

end Roteiro
