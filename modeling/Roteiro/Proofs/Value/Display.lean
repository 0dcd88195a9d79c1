import Mathlib.Logic.Relation
import Roteiro.Proofs.Value.Drawing

/-!
Displaying values. A collection is locked while it is displayed, and one whose lock is held is not
entered. The locks that are held make up the way down to where the display is, so they are the path
of a drawing: displaying ends, writes the text of the value and leaves every lock as it was
(`Heap.display_eq`). Where no way from a value leads into a cycle, its drawing has no ellipsis
(`Heap.Draws.plain`).
-/

namespace Roteiro

open Relation

/-- Displays some values, each with the locks that the one before it has left. -/
def displayInTurn (display : Value → List Address → Option (String × List Address)) :
    List Value → List Address → Option (List String × List Address)
  | [], locks => some ([], locks)
  | v :: vs, locks => do
    let (text, locks) ← display v locks
    let (texts, locks) ← displayInTurn display vs locks
    return (text :: texts, locks)

namespace Heap

/-- Displays a value while some collections are locked. Without fuel it does not end. -/
def display (h : Heap) : Nat → Value → List Address → Option (String × List Address)
  | 0, _, _ => none
  | fuel + 1, v, locks =>
    match v.address? with
    | none => some (v.ownText, locks)
    | some a =>
      if a ∈ locks then some (v.ellipsis, locks)
      else do
        let (texts, locks) ← displayInTurn (h.display fuel) (h.parts v) (a :: locks)
        return (h.bracketed v texts, locks.erase a)

variable {h : Heap} {v x : Value} {a b : Address} {path : List Address} {t u : Drawing}

/-! ### locks -/

theorem displayInTurn_of_each {display : Value → List Address → Option (String × List Address)}
    {f : Value → String} {locks : List Address} {vs : List Value}
    (each : ∀ x ∈ vs, display x locks = some (f x, locks)) :
    displayInTurn display vs locks = some (vs.map f, locks) := by
  induction vs with
  | nil => rfl
  | cons v vs ih =>
    obtain ⟨first, others⟩ := List.forall_mem_cons.1 each
    unfold displayInTurn
    rw [first]
    change (displayInTurn display vs locks).bind _ = _
    rw [ih others]
    rfl

theorem display_own (fuel : Nat) (locks : List Address) (own : v.address? = none) :
    h.display (fuel + 1) v locks = some (v.ownText, locks) := by
  unfold display
  rw [own]

theorem display_again (fuel : Nat) {locks : List Address} (address : v.address? = some a)
    (locked : a ∈ locks) : h.display (fuel + 1) v locks = some (v.ellipsis, locks) := by
  unfold display
  rw [address]
  exact if_pos locked

/-- A collection gives back its own lock after its parts have given back theirs. -/
theorem display_full {fuel : Nat} {locks : List Address} {f : Value → String}
    (address : v.address? = some a) (free : a ∉ locks)
    (each : ∀ x ∈ h.parts v, h.display fuel x (a :: locks) = some (f x, a :: locks)) :
    h.display (fuel + 1) v locks = some (h.bracketed v ((h.parts v).map f), locks) := by
  unfold display
  rw [address]
  dsimp only
  rw [if_neg free, displayInTurn_of_each each]
  exact congrArg (fun left => some (h.bracketed v ((h.parts v).map f), left))
    (List.erase_cons_head a locks)

/-- With fuel for the collections that were not passed, more fuel changes nothing. -/
theorem textWithin_congr (walked : h.Walked path) {fuel more : Nat}
    (enough : h.size + 1 ≤ fuel + path.length) (le : fuel ≤ more) (v : Value) :
    h.textWithin more path v = h.textWithin fuel path v := by
  obtain ⟨t, draws⟩ := exists_draws walked v
  rw [draws.textWithin walked enough, draws.textWithin walked (by omega)]

/-- **Displaying ends and leaves the locks as they were.** The collections that are not locked bound
the depth. -/
theorem display_eq (walked : h.Walked path) {fuel : Nat} (enough : h.size + 2 ≤ fuel + path.length)
    (v : Value) : h.display fuel v path = some (h.textWithin (h.size + 1) path v, path) := by
  induction fuel generalizing path v with
  | zero =>
    have fits := walked.length_le
    omega
  | succ fuel ih =>
    cases address : v.address? with
    | none => rw [display_own fuel path address, textWithin_own _ path address]
    | some a =>
      by_cases locked : a ∈ path
      · rw [display_again fuel address locked, textWithin_again _ address locked]
      · rw [textWithin_full _ address locked]
        refine display_full address locked fun x member => ?_
        have deeper := walked.cons address locked member
        rw [ih deeper (by rw [List.length_cons]; omega) x,
          textWithin_congr deeper (by rw [List.length_cons]; omega) (Nat.le_succ _)]

/-! ### values without cycles -/

/-- A collection leads to another that stands directly in it. -/
def Leads (h : Heap) (a b : Address) : Prop :=
  ∃ v x, v.address? = some a ∧ x ∈ h.parts v ∧ x.address? = some b

/-- No way from a value leads to a collection that leads back to itself. -/
def CycleFree (h : Heap) (v : Value) : Prop :=
  ∀ a b, v.address? = some a → ReflTransGen h.Leads a b → ¬TransGen h.Leads b b

/-- `h.Plain v text`: the text is that of `v` as its structure has it, wherever it stands. -/
inductive Plain (h : Heap) : Value → String → Prop
  | own {v : Value} (own : v.address? = none) : Plain h v v.ownText
  | full {v : Value} {a : Address} {texts : List String} (address : v.address? = some a)
    (length : texts.length = (h.parts v).length)
    (each : ∀ (i : Nat) (x : Value) (text : String), (h.parts v)[i]? = some x →
      texts[i]? = some text → Plain h x text) :
    Plain h v (h.bracketed v texts)

theorem CycleFree.part (free : h.CycleFree v) (address : v.address? = some a)
    (member : x ∈ h.parts v) : h.CycleFree x :=
  fun _ b address' leads => free a b address (.head ⟨v, x, address, member, address'⟩ leads)

end Heap

/-- A drawing without an ellipsis. -/
def Drawing.Whole (t : Drawing) : Prop :=
  ∀ way x, t.at? way ≠ some (.again x)

namespace Drawing

theorem whole_own (v : Value) : (own v).Whole := by
  intro way x
  cases way with
  | nil => exact fun same => nomatch same
  | cons i way => exact fun same => nomatch same

theorem whole_full (v : Value) {ts : List Drawing} (each : ∀ t ∈ ts, t.Whole) :
    (full v ts).Whole := by
  intro way x
  cases way with
  | nil => exact fun same => nomatch same
  | cons i way =>
    intro same
    obtain ⟨t, at_i, deeper⟩ := Option.bind_eq_some_iff.1 same
    exact each t (List.mem_of_getElem? at_i) way x deeper

end Drawing

namespace Heap

variable {h : Heap} {v : Value} {path : List Address} {t : Drawing}

/-- **Without cycles nothing is left out**: a collection above that came again would lead back to
itself. -/
theorem Draws.plain (draws : h.Draws path v t) (free : h.CycleFree v)
    (above : ∀ b ∈ path, ∀ a, v.address? = some a → TransGen h.Leads b a) :
    t.Whole ∧ h.Plain v (t.text h) := by
  induction draws with
  | @own _ v own => exact ⟨Drawing.whole_own v, .own own⟩
  | again address passed => exact absurd (above _ passed _ address) (free _ _ address .refl)
  | @full path v a ts address _ length _ ih =>
    have inner : ∀ (i : Nat) (x : Value) (t : Drawing), (h.parts v)[i]? = some x →
        ts[i]? = some t → t.Whole ∧ h.Plain x (t.text h) := by
      intro i x t held at_i
      have member := List.mem_of_getElem? held
      refine ih i x t held at_i (free.part address member) fun b up c address' => ?_
      have step : h.Leads a c := ⟨v, x, address, member, address'⟩
      cases up with
      | head => exact .single step
      | tail _ up => exact .tail (above b up a address) step
    constructor
    · refine Drawing.whole_full v fun t member => ?_
      obtain ⟨i, at_i⟩ := List.getElem?_of_mem member
      obtain ⟨inside, -⟩ := List.getElem?_eq_some_iff.1 at_i
      have held : (h.parts v)[i]? = some (h.parts v)[i] := List.getElem?_eq_getElem (by omega)
      exact (inner i _ t held at_i).1
    · rw [Drawing.text_full]
      refine .full address (by rw [List.length_map, length]) fun i x text held at_i => ?_
      rw [List.getElem?_map] at at_i
      obtain ⟨t, drawn, rfl⟩ := Option.map_eq_some_iff.1 at_i
      exact (inner i x t held drawn).2

/-! ### the law -/

/-- How a value of a heap is displayed while nothing is locked. -/
structure DisplayLaw (h : Heap) (v : Value) : Prop where
  /-- Displaying ends, with the text of the value and no lock held. -/
  ends : ∀ fuel, h.size + 1 < fuel → h.display fuel v [] = some (h.text v, [])
  /-- So a value can be displayed after others, or after itself, and has the same text. -/
  anew : ∀ fuel, h.size + 1 < fuel → ∀ vs,
    displayInTurn (h.display fuel) (v :: vs) [] = some (h.text v :: vs.map h.text, [])
  /-- The text is that of a drawing with an ellipsis for each collection inside itself, and for no
  other; where there is no cycle it has none. -/
  drawn : ∃ t : Drawing, h.text v = t.text h ∧ h.Shows v t ∧ (h.CycleFree v → t.Whole)
  /-- Where there is no cycle the text is that of the structure. -/
  plain : h.CycleFree v → h.Plain v (h.text v)

/-- **Displaying a value ends on every heap.** -/
theorem display_law (h : Heap) (v : Value) : h.DisplayLaw v := by
  have ends : ∀ fuel, h.size + 1 < fuel → ∀ v, h.display fuel v [] = some (h.text v, []) :=
    fun fuel enough v => display_eq Walked.nil enough v
  obtain ⟨t, draws⟩ := exists_draws (h := h) Walked.nil v
  have whole (free : h.CycleFree v) := draws.plain free fun b up => nomatch up
  rw [draws.text_eq] at whole
  exact {
    ends := fun fuel enough => ends fuel enough v
    anew := fun fuel enough vs => displayInTurn_of_each fun x _ => ends fuel enough x
    drawn := ⟨t, draws.text_eq.symm, draws.shows, fun free => (whole free).1⟩
    plain := fun free => (whole free).2 }

/-- An array that holds a dictionary that holds the array, and another array twice. -/
def tangle : Heap :=
  #[.array #[.dictionary 1, .array 2, .array 2], .dictionary (.ofList [("volta", .array 0)]),
    .array #[.null]]

theorem display_law_of_tangle :
    tangle.text (.array 0) = "[\x7b[\"volta\"] = [...]\x7d, [nulo], [nulo]]" ∧
      tangle.display 5 (.array 0) [] =
        some ("[\x7b[\"volta\"] = [...]\x7d, [nulo], [nulo]]", []) ∧
      tangle.Plain (.array 2) "[nulo]" := by
  have text : tangle.text (.array 0) = "[\x7b[\"volta\"] = [...]\x7d, [nulo], [nulo]]" := by
    decide +kernel
  have leaf : ∀ b, ¬tangle.Leads 2 b := by
    rintro b ⟨v, x, address, member, address'⟩
    cases v with
    | array a =>
      cases address
      obtain rfl : x = .null := by simpa [parts, items, tangle] using member
      cases address'
    | dictionary a =>
      cases address
      have empty : tangle.parts (.dictionary 2) = [] := by with_unfolding_all rfl
      rw [empty] at member
      cases member
    | _ => cases address
  have free : tangle.CycleFree (.array 2) := by
    rintro a b address leads
    cases address
    cases leads.cases_head with
    | inl same =>
      subst same
      intro cycle
      obtain ⟨c, step, -⟩ := TransGen.head'_iff.1 cycle
      exact leaf c step
    | inr longer =>
      obtain ⟨c, step, -⟩ := longer
      exact absurd step (leaf c)
  refine ⟨text, ?_, (display_law tangle (.array 2)).plain free⟩
  rw [← text]
  exact (display_law tangle (.array 0)).ends 5 (by decide)

end Heap

end Roteiro
