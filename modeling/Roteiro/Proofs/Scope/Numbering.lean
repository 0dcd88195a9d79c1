import Mathlib.Data.List.TakeWhile
import Roteiro.Proofs.Scope.Operations
import Roteiro.Proofs.Scope.Resolution

/-!
Numbered locals. Each context numbers its locals in the order in which they are defined, and gives
no number twice, so a local can be told from all others that its context ever had (`LocalId`): it
keeps its number until it is lost to the end of its scope (`Numbered.Sound.find?_apply`). A slot can
not tell that much: it is taken again once its local was dropped. What a binding reads and writes is
the local that stands in its slot now (`Numbered.Sound.touches`), and a name resolves to the local
of that name with the highest number in the nearest context that has one
(`Numbered.Sound.resolvesTo`).
-/

namespace Roteiro

/-- How many locals a context has. -/
def World.extent (w : World) (i : ContextId) : Nat := (w.context i).locals.length

/-- **What an operation does to the names of a context**: it adds newer ones, or it is the end of a
scope and drops newest ones that belong to it. -/
theorem Operation.names_apply (op : Operation) (w : World) (i : ContextId) :
    (w.context i).names <:+ ((op.apply w).context i).names ∨
      op = .leave i ∧ ∃ dropped, (w.context i).names = dropped ++ ((op.apply w).context i).names ∧
        ∀ p ∈ dropped, p.2 = (w.context i).level ∧ Context.baseLevel < p.2 := by
  by_cases live : i < w.contexts.size
  · rcases op.apply_cases live with
      ⟨-, entered, -⟩ | ⟨left, after⟩ | ⟨-, -, -, same | ⟨name, -, added⟩⟩
    · rw [entered]
      exact .inl (List.suffix_refl _)
    · rw [after, Context.names_leave]
      split
      · next above =>
        refine .inr ⟨left, _, (List.takeWhile_append_dropWhile).symm, fun p member => ?_⟩
        have level := List.mem_takeWhile_imp member
        rw [beq_iff_eq] at level
        exact ⟨level, by rw [level]; exact above⟩
      · exact .inl (List.suffix_refl _)
    · rw [same]
      exact .inl (List.suffix_refl _)
    · rw [added]
      exact .inl (List.suffix_cons _ _)
  · -- A context that is not there has no names.
    rw [show w.context i = .root from Contexts.context_of_size_le (Nat.not_lt.1 live)]
    exact .inl (List.nil_suffix)

theorem World.extent_eq (w : World) (i : ContextId) : w.extent i = (w.context i).names.length :=
  (List.length_map _).symm

theorem World.extent_write (w : World) (b : Binding) (v : Value) (i : ContextId) :
    ((Operation.write b v).apply w).extent i = w.extent i := by
  rw [extent_eq, extent_eq]
  exact congrArg (fun s => s.names.length) (shape_write w.contexts b v i)

/-- A local, told by its context and its number there. -/
structure LocalId where
  context : ContextId
  number : Nat
  deriving DecidableEq

/-- A world with numbered locals: how many locals each context has had so far, and the numbers of
those that it still has, oldest first. -/
structure Numbered where
  world : World
  count : ContextId → Nat := fun _ => 0
  numbers : ContextId → List Nat := fun _ => []

namespace Numbered

/-- A world without contexts around a terminal. -/
def around (t : Terminal) : Numbered := { world := .around t }

/-- The world after an operation. The locals of a context are a stack: those that it gets are
numbered next, and those that it loses are the newest. -/
def apply (d : Numbered) (op : Operation) : Numbered :=
  let w := op.apply d.world
  { world := w
    count := fun i => d.count i + (w.extent i - d.world.extent i)
    numbers := fun i =>
      (d.numbers i).take (w.extent i) ++ List.range' (d.count i) (w.extent i - d.world.extent i) }

/-- The world after some operations, from first to last. -/
def run (d : Numbered) (ops : List Operation) : Numbered :=
  ops.foldl apply d

/-- The locals of a context with their numbers, oldest first. -/
def locals (d : Numbered) (i : ContextId) : List (Nat × Local) :=
  (d.numbers i).zip (d.world.context i).locals.reverse

/-- A local, if its context still has it. -/
def find? (d : Numbered) (id : LocalId) : Option Local :=
  (d.locals id.context).lookup id.number

/-- The number of the local that stands in the slot of a binding. -/
def number? (d : Numbered) (b : Binding) : Option Nat :=
  (d.numbers b.context)[b.slot]?

/-- What a name stands for, seen from a context: the local of the name that was defined last among
those that are left in the nearest context of the chain that has any. -/
structure ResolvesTo (d : Numbered) (i : ContextId) (name : String) (id : LocalId) (l : Local) :
    Prop where
  nearest : ∃ before after, d.world.contexts.Chain i (before ++ id.context :: after) ∧
    ∀ c ∈ before, ∀ k ∈ (d.world.context c).locals, k.name ≠ name
  found : d.find? id = some l
  named : l.name = name
  latest : ∀ e ∈ d.locals id.context, e.2.name = name → e.1 ≤ id.number

/-- Between two worlds the value of one local was changed, and nothing else in any context. -/
structure Writes (d d' : Numbered) (id : LocalId) (v : Value) : Prop where
  size : d'.world.contexts.size = d.world.contexts.size
  shape : ∀ i, (d'.world.context i).shape = (d.world.context i).shape
  values : ∀ id', d'.find? id' =
    if id' = id then (d.find? id).map fun l => { l with value := v } else d.find? id'

/-- A binding reads the value of one local, and writes this local and nothing else. -/
structure Touches (d : Numbered) (b : Binding) (id : LocalId) (l : Local) : Prop where
  found : d.find? id = some l
  read : d.world.contexts.read b = l.value
  write : ∀ v, d.Writes (d.apply (.write b v)) id v

/-- What holds of the numbers of every world that comes about by operations. -/
structure Sound (d : Numbered) : Prop where
  reachable : d.world.contexts.Reachable
  length : ∀ i, (d.numbers i).length = d.world.extent i
  given : ∀ i, ∀ n ∈ d.numbers i, n < d.count i
  sorted : ∀ i, (d.numbers i).Pairwise (· < ·)

/-- The numbers depend on nothing but the world that an operation leaves behind. -/
theorem apply_congr {d : Numbered} {op op' : Operation}
    (same : op.apply d.world = op'.apply d.world) : d.apply op = d.apply op' := by
  unfold apply
  rw [same]

/-! ### slots and numbers -/

section

variable {d : Numbered} {b : Binding} {n : Nat}

/-- The number in a slot is what it was before, or it is new. -/
theorem number?_apply (op : Operation) (stands : (d.apply op).number? b = some n) :
    d.number? b = some n ∨ d.count b.context ≤ n := by
  change ((d.numbers b.context).take _ ++ List.range' (d.count b.context) _)[b.slot]? = some n
    at stands
  rw [List.getElem?_append] at stands
  split at stands
  · rw [List.getElem?_take] at stands
    split at stands
    · exact .inl stands
    · cases stands
  · exact .inr (List.mem_range'_1.1 (List.mem_of_getElem? stands)).1

/-- The number in a slot stays as long as its context has the slot. -/
theorem number?_apply_of_lt (op : Operation) (stands : d.number? b = some n)
    (filled : b.slot < (op.apply d.world).extent b.context) : (d.apply op).number? b = some n := by
  have inside := (List.getElem?_eq_some_iff.1 stands).1
  change ((d.numbers b.context).take _ ++ List.range' (d.count b.context) _)[b.slot]? = some n
  rw [List.getElem?_append_left (by rw [List.length_take]; omega), List.getElem?_take_of_lt filled]
  exact stands

/-- A local that is gone does not come back. -/
theorem gone_apply (op : Operation) {i : ContextId} (given : n < d.count i)
    (gone : n ∉ d.numbers i) : n ∉ (d.apply op).numbers i := by
  intro back
  rcases List.mem_append.1 back with old | new
  · exact gone (List.mem_of_mem_take old)
  · exact absurd given (Nat.not_lt.2 (List.mem_range'_1.1 new).1)

/-- The locals with their numbers, split at a local. -/
theorem locals_of_split {i : ContextId} {newer older : List Local} {l : Local}
    {below above : List Nat} (split : (d.world.context i).locals = newer ++ l :: older)
    (numbers : d.numbers i = below ++ n :: above) (same : older.length = below.length) :
    d.locals i = below.zip older.reverse ++ (n, l) :: above.zip newer.reverse := by
  unfold locals
  rw [split, numbers, List.reverse_append, List.reverse_cons, List.append_assoc,
    List.zip_append (by rw [List.length_reverse, same])]
  rfl

/-- A local that is found stands in some slot. -/
theorem number?_of_found {id : LocalId} {l : Local} (found : d.find? id = some l) :
    ∃ newer older, (d.world.context id.context).locals = newer ++ l :: older ∧
      d.number? ⟨id.context, older.length⟩ = some id.number := by
  obtain ⟨front, back, split, -⟩ := List.lookup_eq_some_iff.1 found
  obtain ⟨below, rest, older, rest', same, numbers, locals, -, tail⟩ :=
    List.zip_eq_append_iff.1 split
  obtain ⟨above, newer, rfl, rfl, -⟩ := List.zip_eq_cons_iff.1 tail.symm
  refine ⟨newer.reverse, older.reverse, ?_, ?_⟩
  · have twice := congrArg List.reverse locals
    rw [List.reverse_reverse] at twice
    rw [twice, List.reverse_append, List.reverse_cons, List.append_assoc]
    rfl
  · unfold number?
    rw [numbers, List.length_reverse, ← same, List.getElem?_append_right (Nat.le_refl _),
      Nat.sub_self]
    rfl

/-- A local that is found has its name and level among those of its context. -/
theorem names_of_found {id : LocalId} {l : Local} (found : d.find? id = some l) :
    ∃ front older, (d.world.context id.context).names = front ++ (l.name, l.level) :: older ∧
      d.number? ⟨id.context, older.length⟩ = some id.number := by
  obtain ⟨newer, older, split, stands⟩ := number?_of_found found
  refine ⟨newer.map fun l => (l.name, l.level), older.map fun l => (l.name, l.level), ?_, ?_⟩
  · unfold Context.names
    rw [split, List.map_append, List.map_cons]
  · rw [List.length_map]
    exact stands

end

namespace Sound

theorem around (t : Terminal) : (Numbered.around t).Sound where
  reachable := .refl
  length i := by
    unfold World.extent Numbered.around World.context
    rw [Contexts.context_of_size_le (Nat.zero_le i)]
    rfl
  given i n member := by cases member
  sorted i := .nil

variable {d : Numbered} (h : d.Sound)

include h

theorem apply (op : Operation) : (d.apply op).Sound where
  reachable := by
    change (op.apply d.world).contexts.Reachable
    rcases op.apply_step d.world with same | step
    · rw [same]
      exact h.reachable
    · exact h.reachable.tail step
  length i := by
    change ((d.numbers i).take _ ++ List.range' _ _).length = (op.apply d.world).extent i
    rw [List.length_append, List.length_take, List.length_range', h.length]
    omega
  given i n member := by
    change n < d.count i + ((op.apply d.world).extent i - d.world.extent i)
    rcases List.mem_append.1 member with old | new
    · exact Nat.lt_add_right _ (h.given i n (List.mem_of_mem_take old))
    · exact (List.mem_range'_1.1 new).2
  sorted i := by
    refine List.pairwise_append.2 ⟨(h.sorted i).sublist (List.take_sublist _ _),
      List.pairwise_lt_range' 1, fun n old n' new => ?_⟩
    exact Nat.lt_of_lt_of_le (h.given i n (List.mem_of_mem_take old)) (List.mem_range'_1.1 new).1

theorem run (ops : List Operation) : (d.run ops).Sound := by
  induction ops generalizing d with
  | nil => exact h
  | cons op ops ih => exact ih (h.apply op)

theorem ordered : d.world.contexts.Ordered := h.reachable.ordered

/-- No two slots of a context have the same number. -/
theorem number?_inj {b b' : Binding} {n : Nat} (stands : d.number? b = some n)
    (stands' : d.number? b' = some n) (same : b.context = b'.context) : b = b' := by
  obtain ⟨i, slot⟩ := b
  obtain ⟨i', slot'⟩ := b'
  obtain rfl : i = i' := same
  have nodup : (d.numbers i).Nodup := (h.sorted i).imp Nat.ne_of_lt
  exact congrArg (Binding.mk i) ((List.getElem?_inj (List.getElem?_eq_some_iff.1 stands).1 nodup).1
    (stands.trans stands'.symm))

/-- A local is gone when its slot is. -/
theorem gone_of_le (op : Operation) {b : Binding} {n : Nat} (stands : d.number? b = some n)
    (vacant : (op.apply d.world).extent b.context ≤ b.slot) :
    n ∉ (d.apply op).numbers b.context := by
  intro there
  obtain ⟨slot, inside, rfl⟩ := List.mem_iff_getElem.1 there
  have old := h.given b.context _ (List.mem_of_getElem? stands)
  have stood := number?_apply (b := ⟨b.context, slot⟩) op (List.getElem?_eq_getElem inside)
  have slots := congrArg Binding.slot
    (h.number?_inj stands (stood.resolve_right (Nat.not_le.2 old)) rfl)
  have length := (h.apply op).length b.context
  change _ = (op.apply d.world).extent b.context at length
  dsimp only at slots
  omega

/-- A slot with a local in it has a number. -/
theorem number?_of_filled {b : Binding} (filled : b.slot < d.world.extent b.context) :
    ∃ n, d.number? b = some n := by
  rw [← h.length] at filled
  exact ⟨_, List.getElem?_eq_getElem filled⟩

/-- The numbers of a context are split where its locals are. -/
theorem numbers_of_split {i : ContextId} {newer older : List Local} {l : Local}
    (split : (d.world.context i).locals = newer ++ l :: older) :
    ∃ n below above, d.numbers i = below ++ n :: above ∧ older.length = below.length ∧
      newer.length = above.length ∧ d.number? ⟨i, older.length⟩ = some n := by
  have length := h.length i
  unfold World.extent at length
  rw [split, List.length_append, List.length_cons] at length
  have filled : older.length < (d.numbers i).length := by omega
  refine ⟨_, (d.numbers i).take older.length, (d.numbers i).drop (older.length + 1), ?_, ?_, ?_,
    List.getElem?_eq_getElem filled⟩
  · rw [← List.drop_eq_getElem_cons filled, List.take_append_drop]
  · rw [List.length_take, Nat.min_eq_left (Nat.le_of_lt filled)]
  · rw [List.length_drop]
    omega

/-- A slot that has a number splits the locals and the numbers of its context. -/
theorem split_of_number? {b : Binding} {n : Nat} (stands : d.number? b = some n) :
    ∃ newer l older below above, (d.world.context b.context).locals = newer ++ l :: older ∧
      d.numbers b.context = below ++ n :: above ∧ older.length = b.slot ∧
      older.length = below.length := by
  obtain ⟨filled, -⟩ := List.getElem?_eq_some_iff.1 stands
  obtain ⟨newer, l, older, split, slot⟩ :=
    Context.split_of_lt (Nat.lt_of_lt_of_eq filled (h.length b.context))
  obtain ⟨n', below, above, numbers, same, -, stands'⟩ := h.numbers_of_split split
  rw [slot] at stands'
  obtain rfl : n = n' := Option.some.inj (stands.symm.trans stands')
  exact ⟨newer, l, older, below, above, split, numbers, slot, same⟩

/-- What is found under a number, split at a local. -/
theorem lookup_of_split {i : ContextId} {newer older : List Local} {l : Local}
    {below above : List Nat} {n : Nat} (numbers : d.numbers i = below ++ n :: above) (k : Nat) :
    (below.zip older ++ (n, l) :: above.zip newer).lookup k =
      if k = n then some l else (below.zip older ++ above.zip newer).lookup k := by
  have sorted := h.sorted i
  rw [numbers] at sorted
  have apart := (List.pairwise_append.1 sorted).2.2
  rw [List.lookup_append, List.lookup_append, List.lookup_cons]
  by_cases here : k = n
  · subst here
    have fresh : (below.zip older).lookup k = none := by
      refine List.lookup_eq_none_iff.2 fun e member => ?_
      have less := apart e.1 (List.of_mem_zip member).1 k List.mem_cons_self
      simpa using (Nat.ne_of_lt less).symm
    simp [fresh]
  · have other : (k == n) = false := by simpa using here
    rw [if_neg here, other]

/-- The local in a slot is found under its number. -/
theorem found_of_split {i : ContextId} {newer older : List Local} {l : Local} {n : Nat}
    (split : (d.world.context i).locals = newer ++ l :: older)
    (stands : d.number? ⟨i, older.length⟩ = some n) : d.find? ⟨i, n⟩ = some l := by
  obtain ⟨n', below, above, numbers, same, -, stands'⟩ := h.numbers_of_split split
  obtain rfl : n = n' := Option.some.inj (stands.symm.trans stands')
  unfold find?
  rw [locals_of_split split numbers same, h.lookup_of_split numbers, if_pos rfl]

theorem found_of_number? {b : Binding} {n : Nat} (stands : d.number? b = some n) :
    ∃ l, d.find? ⟨b.context, n⟩ = some l ∧ d.world.contexts.read b = l.value := by
  obtain ⟨newer, l, older, -, -, split, -, slot, -⟩ := h.split_of_number? stands
  refine ⟨l, h.found_of_split split (by rw [slot]; exact stands), ?_⟩
  unfold Contexts.read
  rw [← slot]
  exact Context.valueAt_of_split split

/-- A local is lost when its context has its number no more. -/
theorem find?_eq_none_iff {id : LocalId} :
    d.find? id = none ↔ id.number ∉ d.numbers id.context := by
  constructor
  · intro lost there
    obtain ⟨slot, stands⟩ := List.mem_iff_getElem?.1 there
    obtain ⟨l, found, -⟩ := h.found_of_number? (b := ⟨id.context, slot⟩) stands
    cases lost.symm.trans found
  · intro gone
    refine Option.eq_none_iff_forall_ne_some.2 fun l found => gone ?_
    obtain ⟨newer, older, -, stands⟩ := number?_of_found found
    exact List.mem_of_getElem? stands

/-- The name and the level of a local are those that stand in its slot. -/
theorem found_of_names {i : ContextId} {front older : List (String × Nat)} {name : String}
    {level n : Nat} (names : (d.world.context i).names = front ++ (name, level) :: older)
    (stands : d.number? ⟨i, older.length⟩ = some n) :
    ∃ v, d.find? ⟨i, n⟩ = some ⟨name, level, v⟩ := by
  obtain ⟨newer, l, older', -, -, split, -, slot, -⟩ := h.split_of_number? stands
  dsimp only at split slot
  unfold Context.names at names
  rw [split, List.map_append, List.map_cons] at names
  obtain ⟨-, rest⟩ := List.append_inj' names (by simp [slot])
  obtain ⟨label, -⟩ := List.cons.inj rest
  cases label
  exact ⟨l.value, h.found_of_split split (by rw [slot]; exact stands)⟩

/-- **What becomes of a local**: it is still there, under its name and on its level, or it was lost
to the end of the scope in which it was defined. -/
theorem find?_apply (op : Operation) {id : LocalId} {l : Local} (found : d.find? id = some l) :
    (∃ v, (d.apply op).find? id = some { l with value := v }) ∨
      (d.apply op).find? id = none ∧ op = .leave id.context ∧
        l.level = (d.world.context id.context).level ∧ Context.baseLevel < l.level := by
  obtain ⟨front, older, names, stands⟩ := names_of_found found
  -- As long as the name is there with the same ones below it, it stands for the same local.
  have kept : ∀ front', ((op.apply d.world).context id.context).names =
      front' ++ (l.name, l.level) :: older →
      ∃ v, (d.apply op).find? id = some { l with value := v } := by
    intro front' there
    have filled : older.length < (op.apply d.world).extent id.context := by
      rw [World.extent_eq, there, List.length_append, List.length_cons]
      omega
    exact (h.apply op).found_of_names there (number?_apply_of_lt op stands filled)
  rcases op.names_apply d.world id.context with ⟨added, after⟩ | ⟨left, dropped, before, level⟩
  · exact .inl (kept (added ++ front) (by rw [← after, names, List.append_assoc]))
  · rw [names] at before
    rcases List.append_eq_append_iff.1 before with ⟨gone, rfl, rest⟩ | ⟨front', -, rest⟩
    · cases gone with
      | nil => exact .inl (kept [] rest.symm)
      | cons p gone =>
        obtain ⟨rfl, rfl⟩ := List.cons.inj rest
        have own := level (l.name, l.level) (by simp)
        have vacant : (op.apply d.world).extent id.context ≤
            (gone ++ ((op.apply d.world).context id.context).names).length := by
          rw [World.extent_eq, List.length_append]
          omega
        have lost := h.gone_of_le op stands vacant
        exact .inr ⟨(h.apply op).find?_eq_none_iff.2 lost, left, own⟩
    · exact .inl (kept front' rest)

/-! ### writing -/

/-- The numbers of a context that keeps its extent stay. -/
theorem numbers_apply {op : Operation} {i : ContextId}
    (same : (op.apply d.world).extent i = d.world.extent i) :
    (d.apply op).numbers i = d.numbers i := by
  change (d.numbers i).take ((op.apply d.world).extent i) ++
    List.range' (d.count i) ((op.apply d.world).extent i - d.world.extent i) = d.numbers i
  rw [same, Nat.sub_self, List.range'_zero, List.append_nil, ← h.length i, List.take_length]

/-- **To write to a binding changes the local in its slot and nothing else.** -/
theorem writes {b : Binding} {n : Nat} (stands : d.number? b = some n) (v : Value) :
    d.Writes (d.apply (.write b v)) ⟨b.context, n⟩ v := by
  refine ⟨Contexts.size_update _, fun i => World.shape_write _ b v i, fun id => ?_⟩
  have numbers' := h.numbers_apply (World.extent_write d.world b v id.context)
  obtain ⟨newer, l, older, below, above, split, numbers, slot, same⟩ := h.split_of_number? stands
  by_cases here : id.context = b.context
  · have live : b.context < d.world.contexts.size := by
      refine Nat.not_le.1 fun outside => ?_
      rw [show d.world.context b.context = .root from Contexts.context_of_size_le outside] at split
      exact List.append_ne_nil_of_right_ne_nil _ (List.cons_ne_nil _ _) split.symm
    have written : ((d.apply (.write b v)).world.context b.context).locals =
        newer ++ { l with value := v } :: older := by
      rw [show (d.apply (.write b v)).world.context b.context =
        (d.world.context b.context).write b.slot v from Contexts.context_update_self live _,
        ← slot, Context.write_of_split split]
    obtain ⟨c, k⟩ := id
    obtain rfl : c = b.context := here
    rw [numbers] at numbers'
    unfold find?
    rw [locals_of_split split numbers same, locals_of_split written numbers' same,
      h.lookup_of_split numbers, h.lookup_of_split numbers, h.lookup_of_split numbers, if_pos rfl]
    by_cases this : k = n
    · subst this
      rw [if_pos rfl, if_pos rfl]
      rfl
    · rw [if_neg this, if_neg this, if_neg fun both => this (congrArg LocalId.number both)]
  · have other : (d.apply (.write b v)).world.context id.context = d.world.context id.context :=
      Contexts.context_update_of_ne here _
    unfold find? locals
    rw [if_neg fun both => here (congrArg LocalId.context both), numbers', other]

/-- **A binding touches the local that stands in its slot.** -/
theorem touches {b : Binding} {n : Nat} (stands : d.number? b = some n) :
    ∃ l, d.Touches b ⟨b.context, n⟩ l := by
  obtain ⟨l, found, read⟩ := h.found_of_number? stands
  exact ⟨l, found, read, h.writes stands⟩

/-! ### resolving -/

/-- Of all locals of a name, one has the highest number if no newer one has the name. -/
theorem latest_iff {i : ContextId} {newer older : List Local} {l : Local} {n : Nat}
    (split : (d.world.context i).locals = newer ++ l :: older)
    (stands : d.number? ⟨i, older.length⟩ = some n) (name : String) :
    (∀ e ∈ d.locals i, e.2.name = name → e.1 ≤ n) ↔ ∀ k ∈ newer, k.name ≠ name := by
  obtain ⟨n', below, above, numbers, same, same', stands'⟩ := h.numbers_of_split split
  obtain rfl : n = n' := Option.some.inj (stands.symm.trans stands')
  have sorted := h.sorted i
  rw [numbers] at sorted
  obtain ⟨-, after, before⟩ := List.pairwise_append.1 sorted
  rw [locals_of_split split numbers same]
  constructor
  · intro latest k member named
    have numbered : k ∈ (above.zip newer.reverse).map Prod.snd := by
      rw [List.map_snd_zip (by rw [List.length_reverse, same'])]
      exact List.mem_reverse.2 member
    obtain ⟨e, there, rfl⟩ := List.mem_map.1 numbered
    have higher := (List.pairwise_cons.1 after).1 e.1 (List.of_mem_zip there).1
    refine absurd higher (Nat.not_lt.2 (latest e ?_ named))
    exact List.mem_append_right _ (List.mem_cons_of_mem _ there)
  · intro others e member named
    rcases List.mem_append.1 member with old | rest
    · exact Nat.le_of_lt (before e.1 (List.of_mem_zip old).1 n List.mem_cons_self)
    · rcases List.mem_cons.1 rest with rfl | new
      · exact Nat.le_refl _
      · exact absurd named (others e.2 (List.mem_reverse.1 (List.of_mem_zip new).2))

/-- **A name resolves to the slot of the local that it stands for.** -/
theorem resolvesTo {i : ContextId} {name : String} {b : Binding}
    (resolved : d.world.contexts.resolve? i name = some b) :
    ∃ n l, d.number? b = some n ∧ d.ResolvesTo i name ⟨b.context, n⟩ l := by
  obtain ⟨chain, leads, -⟩ := h.ordered.chain i
  obtain ⟨before, after, rfl, others, here⟩ := (leads.resolve?_eq_some_iff h.ordered).1 resolved
  obtain ⟨newer, l, older, split, newer_others, named, slot⟩ := Context.slotIn_eq_some_iff.1 here
  obtain ⟨n, -, -, -, -, -, stands⟩ := h.numbers_of_split split
  refine ⟨n, l, by rw [slot] at stands; exact stands, ⟨before, after, leads, others⟩,
    h.found_of_split split stands, named, (h.latest_iff split stands name).2 newer_others⟩

/-- A name that stands for a local resolves to the slot of it. -/
theorem resolve?_of_resolvesTo {i : ContextId} {name : String} {id : LocalId} {l : Local}
    (stands_for : d.ResolvesTo i name id l) :
    ∃ b, d.world.contexts.resolve? i name = some b ∧ id.context = b.context ∧
      d.number? b = some id.number := by
  obtain ⟨before, after, leads, others⟩ := stands_for.nearest
  obtain ⟨newer, older, split, stands⟩ := number?_of_found stands_for.found
  have newer_others := (h.latest_iff split stands name).1 stands_for.latest
  have here := Context.slotIn_eq_some_iff.2
    ⟨newer, l, older, split, newer_others, stands_for.named, rfl⟩
  have resolved := (leads.resolve?_eq_some_iff h.ordered (b := ⟨id.context, older.length⟩)).2
    ⟨before, after, rfl, others, here⟩
  exact ⟨_, resolved, rfl, stands⟩

/-- A name stands for one local at most. -/
theorem resolvesTo_unique {i : ContextId} {name : String} {id id' : LocalId} {l l' : Local}
    (stands_for : d.ResolvesTo i name id l) (stands_for' : d.ResolvesTo i name id' l') :
    id = id' := by
  obtain ⟨b, resolved, context, stands⟩ := h.resolve?_of_resolvesTo stands_for
  obtain ⟨b', resolved', context', stands'⟩ := h.resolve?_of_resolvesTo stands_for'
  cases resolved.symm.trans resolved'
  obtain ⟨c, n⟩ := id
  obtain ⟨c', n'⟩ := id'
  exact congr (congrArg LocalId.mk (context.trans context'.symm))
    (Option.some.inj (stands.symm.trans stands'))

end Sound

end Numbered

end Roteiro
