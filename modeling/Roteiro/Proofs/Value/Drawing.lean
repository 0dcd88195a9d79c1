import Mathlib.Data.List.Nodup
import Mathlib.Data.List.Perm.Subperm
import Roteiro.Value.Printer

/-!
What is drawn of a value. A value holds others, which hold others, and the way down may lead back to
a collection it has passed. A drawing follows all ways down from a value and stops where a collection
stands inside itself. Every value of every heap has a drawing (`Heap.exists_draws`), whose text is
the text of the value (`Heap.Draws.text_eq`). Seen by the ways alone, an occurrence is an ellipsis
exactly where its collection has been passed before (`Heap.Draws.shows`).
-/

namespace Roteiro

open Decimal Text

/-! ### parts of values -/

namespace Value

/-- The address of a collection. -/
def address? : Value → Option Address
  | array a => some a
  | dictionary a => some a
  | _ => none

/-- The text of a value that holds no others. -/
def ownText : Value → String
  | null => "nulo"
  | number v => Layout.plain.text v
  | boolean v => boolText v
  | string v => v
  | function _ closure => "<função " ++ closure.name ++ ">"
  | native _ builtin => "<função nativa " ++ builtin.name ++ ">"
  | array _ | dictionary _ => ""

/-- What stands for a collection inside itself. -/
def ellipsis : Value → String
  | dictionary _ => "\x7b...\x7d"
  | _ => "[...]"

end Value

namespace Heap

/-- The values that stand directly in a value, in order. -/
def parts (h : Heap) : Value → List Value
  | .array a => (h.items a).toList
  | .dictionary a => (h.entries a).keys.map (h.entries a).get
  | _ => []

/-- The text of a collection around the texts of its parts. -/
def bracketed (h : Heap) (v : Value) (texts : List String) : String :=
  match v with
  | .array _ => "[" ++ commaSeparated texts ++ "]"
  | .dictionary a =>
    "\x7b" ++ commaSeparated (List.zipWith (fun key text => "[\"" ++ key ++ "\"] = " ++ text)
      (h.entries a).keys texts) ++ "\x7d"
  | _ => ""

variable {h : Heap} {v : Value} {a : Address}

/-- Nothing stands at an address beyond the heap. -/
theorem parts_of_size_le (address : v.address? = some a) (beyond : h.size ≤ a) :
    h.parts v = [] := by
  have nothing : h[a]? = none := Array.getElem?_eq_none beyond
  cases v with
  | array b =>
    cases address
    have empty : h.items a = #[] := by
      unfold items
      rw [nothing]
    exact congrArg Array.toList empty
  | dictionary b =>
    cases address
    have empty : h.entries a = .empty := by
      unfold entries
      rw [nothing]
    exact congrArg (fun d : Dictionary => d.keys.map d.get) empty
  | _ => cases address

/-! ### the text of a value by its parts -/

theorem textWithin_own (fuel : Nat) (path : List Address) (own : v.address? = none) :
    h.textWithin fuel path v = v.ownText := by
  cases v with
  | array b => cases own
  | dictionary b => cases own
  | _ => cases fuel <;> rfl

theorem textWithin_again (fuel : Nat) {path : List Address} (address : v.address? = some a)
    (passed : a ∈ path) : h.textWithin fuel path v = v.ellipsis := by
  cases v with
  | array b =>
    cases address
    cases fuel with
    | zero => rfl
    | succ fuel => exact if_pos passed
  | dictionary b =>
    cases address
    cases fuel with
    | zero => rfl
    | succ fuel => exact if_pos passed
  | _ => cases address

theorem textWithin_full (fuel : Nat) {path : List Address} (address : v.address? = some a)
    (new : a ∉ path) : h.textWithin (fuel + 1) path v =
      h.bracketed v ((h.parts v).map (h.textWithin fuel (a :: path))) := by
  cases v with
  | array b =>
    cases address
    exact if_neg new
  | dictionary b =>
    cases address
    unfold bracketed parts
    dsimp only
    rw [List.map_map, List.zipWith_map_right, List.zipWith_self]
    exact if_neg new
  | _ => cases address

end Heap

/-! ### drawings -/

/-- A drawing of a value: its own text, an ellipsis, or the drawings of its parts in brackets. -/
inductive Drawing where
  | own (value : Value)
  | again (value : Value)
  | full (value : Value) (parts : List Drawing)

namespace Drawing

/-- The value that is drawn. -/
def value : Drawing → Value
  | own v => v
  | again v => v
  | full v _ => v

/-- The drawings of the parts. -/
def parts : Drawing → List Drawing
  | full _ ts => ts
  | _ => []

/-- The drawing at the end of a way down, each step of which goes to the part of that number. -/
def at? (t : Drawing) : List Nat → Option Drawing
  | [] => some t
  | i :: way => t.parts[i]?.bind fun u => u.at? way

mutual

/-- The text of a drawing. -/
def text (h : Heap) : Drawing → String
  | own v => v.ownText
  | again v => v.ellipsis
  | full v ts => h.bracketed v (textAll h ts)

/-- The texts of some drawings. -/
def textAll (h : Heap) : List Drawing → List String
  | [] => []
  | t :: ts => t.text h :: textAll h ts

end

theorem textAll_eq (h : Heap) (ts : List Drawing) : textAll h ts = ts.map (text h) := by
  induction ts with
  | nil => rfl
  | cons t ts ih => exact congrArg (t.text h :: ·) ih

theorem text_full (h : Heap) (v : Value) (ts : List Drawing) :
    (full v ts).text h = h.bracketed v (ts.map (text h)) := by
  rw [text, textAll_eq]

end Drawing

namespace Heap

variable {h : Heap} {v x : Value} {a : Address} {path : List Address} {t u : Drawing}

/-- `h.Draws path v t`: below the collections of `path`, innermost first, the value `v` is drawn as
`t`. -/
inductive Draws (h : Heap) : List Address → Value → Drawing → Prop
  | own {path : List Address} {v : Value} (own : v.address? = none) : Draws h path v (.own v)
  | again {path : List Address} {v : Value} {a : Address} (address : v.address? = some a)
    (passed : a ∈ path) : Draws h path v (.again v)
  | full {path : List Address} {v : Value} {a : Address} {ts : List Drawing}
    (address : v.address? = some a) (new : a ∉ path) (length : ts.length = (h.parts v).length)
    (each : ∀ (i : Nat) (x : Value) (t : Drawing), (h.parts v)[i]? = some x → ts[i]? = some t →
      Draws h (a :: path) x t) :
    Draws h path v (.full v ts)

/-- A way down that passes no collection twice. -/
structure Walked (h : Heap) (path : List Address) : Prop where
  nodup : path.Nodup
  inside : ∀ a ∈ path, a < h.size

theorem Walked.length_le (walked : h.Walked path) : path.length ≤ h.size := by
  have within : path ⊆ List.range h.size :=
    fun a member => List.mem_range.2 (walked.inside a member)
  simpa using (List.Nodup.subperm walked.nodup within).length_le

/-- A way goes on from a collection that it has not passed, if there is anything in it. -/
theorem Walked.cons (walked : h.Walked path) (address : v.address? = some a) (new : a ∉ path)
    (member : x ∈ h.parts v) : h.Walked (a :: path) := by
  refine ⟨List.nodup_cons.2 ⟨new, walked.nodup⟩, List.forall_mem_cons.2 ⟨?_, walked.inside⟩⟩
  by_contra beyond
  rw [parts_of_size_le address (Nat.le_of_not_lt beyond)] at member
  cases member

/-- **Every value has a drawing**: no way down is longer than the heap is large. -/
theorem exists_draws (walked : h.Walked path) (v : Value) : ∃ t, h.Draws path v t := by
  generalize left : h.size - path.length = n
  induction n using Nat.strongRecOn generalizing path v with
  | _ n ih =>
    cases address : v.address? with
    | none => exact ⟨_, .own address⟩
    | some a =>
      by_cases passed : a ∈ path
      · exact ⟨_, .again address passed⟩
      · have inner : ∀ x, ∃ t, x ∈ h.parts v → h.Draws (a :: path) x t := by
          intro x
          by_cases member : x ∈ h.parts v
          · have longer := walked.cons address passed member
            have fits := longer.length_le
            rw [List.length_cons] at fits
            obtain ⟨t, draws⟩ := ih (h.size - (a :: path).length)
              (by rw [List.length_cons]; omega) longer x rfl
            exact ⟨t, fun _ => draws⟩
          · exact ⟨.own x, fun member' => absurd member' member⟩
        choose draw drawn using inner
        refine ⟨.full v ((h.parts v).map draw), .full address passed (List.length_map _) ?_⟩
        intro i x t held at_i
        rw [List.getElem?_map, held] at at_i
        cases at_i
        exact drawn x (List.mem_of_getElem? held)

/-- The texts of the parts, once each of them is known. -/
theorem map_parts {ts : List Drawing} (length : ts.length = (h.parts v).length)
    {f : Value → String}
    (each : ∀ (i : Nat) (x : Value) (t : Drawing), (h.parts v)[i]? = some x → ts[i]? = some t →
      f x = t.text h) :
    (h.parts v).map f = ts.map (Drawing.text h) := by
  refine List.ext_getElem (by simp [length]) fun i hi hi' => ?_
  rw [List.getElem_map, List.getElem_map]
  rw [List.length_map] at hi hi'
  exact each i _ _ (List.getElem?_eq_getElem hi) (List.getElem?_eq_getElem hi')

/-- With fuel for the collections that were not passed, the text of a value is that of its drawing. -/
theorem Draws.textWithin (draws : h.Draws path v t) (walked : h.Walked path) {fuel : Nat}
    (enough : h.size + 1 ≤ fuel + path.length) : h.textWithin fuel path v = t.text h := by
  induction draws generalizing fuel with
  | own own => rw [textWithin_own fuel _ own, Drawing.text]
  | again address passed => rw [textWithin_again fuel address passed, Drawing.text]
  | @full path v a ts address new length _ ih =>
    have fits := walked.length_le
    obtain ⟨fuel, rfl⟩ : ∃ n, fuel = n + 1 := ⟨fuel - 1, by omega⟩
    rw [textWithin_full fuel address new, Drawing.text_full]
    refine congrArg _ (map_parts length fun i x t held at_i => ?_)
    refine ih i x t held at_i (walked.cons address new (List.mem_of_getElem? held)) ?_
    rw [List.length_cons]
    omega

theorem Walked.nil : h.Walked [] := ⟨List.nodup_nil, fun _ none => nomatch none⟩

theorem Draws.text_eq (draws : h.Draws [] v t) : t.text h = h.text v :=
  (draws.textWithin Walked.nil (Nat.le_refl _)).symm

/-! ### occurrences -/

/-- `h.Reaches v way path x`: the way from `v` leads down to `x` through the collections of `path`,
outermost first. Each step of the way goes to the part of that number. -/
inductive Reaches (h : Heap) : Value → List Nat → List Address → Value → Prop
  | here (v : Value) : Reaches h v [] [] v
  | part {v x y : Value} {a : Address} {i : Nat} {way : List Nat} {path : List Address}
    (address : v.address? = some a) (held : (h.parts v)[i]? = some x)
    (rest : Reaches h x way path y) : Reaches h v (i :: way) (a :: path) y

/-- How the occurrences of values in `v` are drawn in `t`. -/
structure Shows (h : Heap) (v : Value) (t : Drawing) : Prop where
  /-- Nothing is drawn but what stands there. -/
  stands : ∀ way u, t.at? way = some u → ∃ path, h.Reaches v way path u.value
  /-- An occurrence is drawn unless it is below an ellipsis. -/
  drawn : ∀ way path x, h.Reaches v way path x → ((t.at? way).isSome ↔ path.Nodup)
  /-- A collection is an ellipsis exactly where it stands inside itself. -/
  again : ∀ way path x u, h.Reaches v way path x → t.at? way = some u →
    (u = .again x ↔ ∃ a ∈ path, x.address? = some a)
  /-- Everywhere else a collection is drawn with all its parts. -/
  full : ∀ way path x u a, h.Reaches v way path x → t.at? way = some u → x.address? = some a →
    a ∉ path → ∃ ts, u = .full x ts ∧ ts.length = (h.parts x).length
  /-- Other values are drawn by their own text. -/
  own : ∀ way path x u, h.Reaches v way path x → t.at? way = some u → x.address? = none → u = .own x

namespace Draws

theorem value_eq (draws : h.Draws path v t) : t.value = v := by
  cases draws <;> rfl

/-- The drawing at an occurrence is a drawing below the collections on the way. -/
theorem at_way (draws : h.Draws path v t) {way : List Nat} {passed : List Address}
    (reaches : h.Reaches v way passed x) (found : t.at? way = some u) :
    h.Draws (passed.reverse ++ path) x u := by
  induction reaches generalizing path t with
  | here v =>
    cases found
    exact draws
  | @part v x y a i way passed address held _ ih =>
    unfold Drawing.at? at found
    obtain ⟨t', at_i, deeper⟩ := Option.bind_eq_some_iff.1 found
    cases draws with
    | own _ => cases at_i
    | again _ _ => cases at_i
    | full address' new length each =>
      cases address.symm.trans address'
      rw [List.reverse_cons, List.append_assoc]
      exact ih (each i x t' held at_i) deeper

theorem isSome_at? (draws : h.Draws path v t) (nodup : path.Nodup) {way : List Nat}
    {passed : List Address} (reaches : h.Reaches v way passed x) :
    (t.at? way).isSome ↔ (passed.reverse ++ path).Nodup := by
  induction reaches generalizing path t with
  | here v => exact ⟨fun _ => nodup, fun _ => rfl⟩
  | @part v x y a i way passed address held _ ih =>
    rw [List.reverse_cons, List.append_assoc]
    unfold Drawing.at?
    cases draws with
    | own own =>
      rw [own] at address
      cases address
    | again address' again =>
      cases address.symm.trans address'
      -- The way has gone through an ellipsis, where nothing is drawn.
      have twice : ¬(passed.reverse ++ ([a] ++ path)).Nodup := fun distinct =>
        (List.nodup_cons.1 (List.nodup_append.1 distinct).2.1).1 again
      exact iff_of_false Bool.false_ne_true twice
    | @full _ _ _ ts address' new length each =>
      cases address.symm.trans address'
      obtain ⟨inside, -⟩ := List.getElem?_eq_some_iff.1 held
      have at_i : ts[i]? = some ts[i] := List.getElem?_eq_getElem (by omega)
      change ((ts[i]?).bind fun u => u.at? way).isSome ↔ _
      rw [at_i]
      exact ih (each i x _ held at_i) (List.nodup_cons.2 ⟨new, nodup⟩)

theorem stands (draws : h.Draws path v t) {way : List Nat} (found : t.at? way = some u) :
    ∃ passed, h.Reaches v way passed u.value := by
  induction way generalizing path v t with
  | nil =>
    cases found
    rw [draws.value_eq]
    exact ⟨[], .here v⟩
  | cons i way ih =>
    unfold Drawing.at? at found
    obtain ⟨t', at_i, deeper⟩ := Option.bind_eq_some_iff.1 found
    cases draws with
    | own _ => cases at_i
    | again _ _ => cases at_i
    | full address new length each =>
      obtain ⟨inside, -⟩ := List.getElem?_eq_some_iff.1 at_i
      have bound : i < (h.parts v).length := by
        rw [← length]
        exact inside
      have held : (h.parts v)[i]? = some (h.parts v)[i] := List.getElem?_eq_getElem bound
      obtain ⟨passed, reaches⟩ := ih (each i _ t' held at_i) deeper
      exact ⟨_, .part address held reaches⟩

/-- **A drawing shows each collection in full but inside itself.** -/
theorem shows (draws : h.Draws [] v t) : h.Shows v t where
  stands _ _ found := draws.stands found
  drawn way path x reaches := by
    rw [draws.isSome_at? List.nodup_nil reaches, List.append_nil, List.nodup_reverse]
  again way path x u reaches found := by
    have drawn := draws.at_way reaches found
    rw [List.append_nil] at drawn
    cases drawn with
    | own own => simp [own]
    | again address passed => simpa using ⟨_, by simpa using passed, address⟩
    | full address new _ _ => simpa [address] using new
  full way path x u a reaches found address new := by
    have drawn := draws.at_way reaches found
    rw [List.append_nil] at drawn
    cases drawn with
    | own own =>
      rw [own] at address
      cases address
    | again address' passed =>
      cases address.symm.trans address'
      exact absurd (List.mem_reverse.1 passed) new
    | full _ _ length _ => exact ⟨_, rfl, length⟩
  own way path x u reaches found own := by
    have drawn := draws.at_way reaches found
    cases drawn with
    | own _ => rfl
    | again address _ =>
      rw [own] at address
      cases address
    | full address _ _ _ =>
      rw [own] at address
      cases address

end Draws

end Heap

end Roteiro
