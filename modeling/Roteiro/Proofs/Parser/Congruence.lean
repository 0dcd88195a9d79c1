import Roteiro.Parser.Source
import Roteiro.Proofs.Parser.Soundness

/-!
Relations between parsers that are kept by all that the grammar is put together from. Such a
*congruence* holds between every function of the grammar with some fuel and the same function with
more (`Parse.Congruent.agree`). Two of them say how parsers go through tokens: they leave what they
did not use, whether they succeed or fail (`Parse.Forward`), and more fuel goes on where less fuel
ran out, and changes nothing elsewhere (`Parse.Extends`). So an answer can be spoken of without fuel
(`Tokens.expression`).
-/

namespace Roteiro

namespace Parse

/-! ### congruences -/

/-- A relation that is kept by all that parsers are put together from. Out of fuel, a parser is
related to any other. -/
structure Congruent (rel : ∀ {α : Type}, Parse α → Parse α → Prop) : Prop where
  pure : ∀ {α : Type} (a : α), rel (Pure.pure a) (Pure.pure a)
  bind : ∀ {α β : Type} {p q : Parse α} {f g : α → Parse β}, rel p q → (∀ a, rel (f a) (g a)) →
    rel (p >>= f) (q >>= g)
  exhausted : ∀ {α : Type} (q : Parse α), rel exhausted q
  fail : ∀ {α : Type} (fault : SyntaxFault) (span : Span),
    rel (fail fault span : Parse α) (fail fault span)
  peek : rel peek peek
  peekSecond : rel peekSecond peekSecond
  advance : rel advance advance
  accept : ∀ kind, rel (accept kind) (accept kind)
  expect : ∀ kind, rel (expect kind) (expect kind)
  optional : ∀ {α : Type} {p q : Parse α}, rel p q → rel (optional p) (optional q)

namespace Congruent

variable {rel : ∀ {α : Type}, Parse α → Parse α → Prop} (h : Congruent (@rel))

include h

theorem ident : rel ident ident :=
  h.bind (h.expect _) fun _ => h.pure _

theorem nonExpression {α : Type} (t : Token) :
    rel (nonExpression t : Parse α) (nonExpression t) :=
  h.fail _ _

theorem target (e : Expression) : rel (target e) (target e) := by
  unfold Parse.target
  split
  · exact h.pure _
  · exact h.pure _
  · exact h.fail _ _

theorem parameters {n k : Nat} (hnk : n ≤ k) : rel (parameters n) (parameters k) := by
  induction n generalizing k with
  | zero => exact h.exhausted _
  | succ n ih =>
    obtain ⟨k, rfl⟩ : ∃ j, k = j + 1 := ⟨k - 1, by omega⟩
    rw [Parse.parameters, Parse.parameters]
    refine h.bind h.peek fun t => ?_
    split_ifs
    · exact h.bind h.ident fun _ => h.bind (h.accept _) fun _ =>
        h.bind (ih (by omega)) fun _ => h.pure _
    · exact h.pure _

end Congruent

/-- With `n` units of fuel all functions of the grammar are related to those with `k` units. -/
structure Agree (rel : ∀ {α : Type}, Parse α → Parse α → Prop) (n k : Nat) : Prop where
  expression : rel (expression n) (expression k)
  operation : ∀ tier, rel (operation n tier) (operation k tier)
  operand : ∀ tier, rel (operand n tier) (operand k tier)
  chain : ∀ tier left, rel (chain n tier left) (chain k tier left)
  factor : rel (factor n) (factor k)
  suffixes : ∀ head, rel (suffixes n head) (suffixes k head)
  primary : rel (primary n) (primary k)
  sequence : ∀ close, rel (sequence n close) (sequence k close)
  entries : rel (entries n) (entries k)
  key : rel (key n) (key k)
  routine : ∀ named, rel (routine n named) (routine k named)
  body : rel (body n) (body k)
  statement : rel (statement n) (statement k)
  expressionStatement : rel (expressionStatement n) (expressionStatement k)
  assignment : rel (assignment n) (assignment k)
  clause : ∀ keyword, rel (clause n keyword) (clause k keyword)
  countLoop : ∀ start, rel (countLoop n start) (countLoop k start)
  eachLoop : ∀ start, rel (eachLoop n start) (eachLoop k start)
  conditional : ∀ start, rel (conditional n start) (conditional k start)
  branches : rel (branches n) (branches k)
  returnValues : ∀ start, rel (returnValues n start) (returnValues k start)
  moreValues : rel (moreValues n) (moreValues k)

namespace Agree

variable {rel : ∀ {α : Type}, Parse α → Parse α → Prop} {n k : Nat}

theorem zero (h : Congruent (@rel)) (k : Nat) : Agree (@rel) 0 k where
  expression := h.exhausted _
  operation _ := h.exhausted _
  operand _ := h.exhausted _
  chain _ _ := h.exhausted _
  factor := h.exhausted _
  suffixes _ := h.exhausted _
  primary := h.exhausted _
  sequence _ := h.exhausted _
  entries := h.exhausted _
  key := h.exhausted _
  routine _ := h.exhausted _
  body := h.exhausted _
  statement := h.exhausted _
  expressionStatement := h.exhausted _
  assignment := h.exhausted _
  clause _ := h.exhausted _
  countLoop _ := h.exhausted _
  eachLoop _ := h.exhausted _
  conditional _ := h.exhausted _
  branches := h.exhausted _
  returnValues _ := h.exhausted _
  moreValues := h.exhausted _

section Step

variable (h : Congruent (@rel)) (ih : Agree (@rel) n k)

include ih

theorem operand_succ (tier : Tier) :
    rel (Parse.operand (n + 1) tier) (Parse.operand (k + 1) tier) := by
  cases tier with
  | logical => exact ih.operation .comparison
  | comparison => exact ih.operation .additive
  | additive => exact ih.operation .multiplicative
  | multiplicative => exact ih.factor

include h

theorem chain_succ (tier : Tier) (left : Expression) :
    rel (Parse.chain (n + 1) tier left) (Parse.chain (k + 1) tier left) := by
  rw [Parse.chain, Parse.chain]
  refine h.bind h.peek fun t => ?_
  cases operator? tier t.kind with
  | none => exact h.pure _
  | some op =>
    exact h.bind h.advance fun _ => h.bind (ih.operand tier) fun _ => ih.chain tier _

theorem factor_succ : rel (Parse.factor (n + 1)) (Parse.factor (k + 1)) := by
  rw [Parse.factor, Parse.factor]
  refine h.bind h.peek fun t => ?_
  split_ifs
  · exact h.bind h.advance fun _ => h.bind ih.factor fun _ => h.pure _
  · exact h.bind ih.primary fun head => ih.suffixes head

theorem suffixes_succ (head : Expression) :
    rel (Parse.suffixes (n + 1) head) (Parse.suffixes (k + 1) head) := by
  rw [Parse.suffixes, Parse.suffixes]
  refine h.bind h.peek fun t => ?_
  generalize t.kind = kind
  split
  · exact h.bind h.advance fun _ => h.bind (ih.sequence _) fun _ => h.bind (h.expect _) fun _ =>
      ih.suffixes _
  · exact h.bind h.advance fun _ => h.bind h.ident fun _ => ih.suffixes _
  · exact h.bind h.advance fun _ => h.bind ih.expression fun _ => h.bind (h.expect _) fun _ =>
      ih.suffixes _
  · exact h.pure _

theorem primary_succ : rel (Parse.primary (n + 1)) (Parse.primary (k + 1)) := by
  rw [Parse.primary, Parse.primary]
  refine h.bind h.peek fun t => ?_
  cases atom? t with
  | some atom => exact h.bind h.advance fun _ => h.pure _
  | none =>
    generalize t.kind = kind
    dsimp only
    split
    · exact h.bind h.advance fun _ => h.bind ih.expression fun _ => h.bind (h.expect _) fun _ =>
        h.pure _
    · exact h.bind h.advance fun _ => h.bind (ih.sequence _) fun _ => h.bind (h.expect _) fun _ =>
        h.pure _
    · exact h.bind h.advance fun _ => h.bind ih.entries fun _ => h.bind (h.expect _) fun _ =>
        h.pure _
    · exact h.bind (ih.routine false) fun _ => h.pure _
    · exact h.nonExpression t

theorem sequence_succ (close : Kind) :
    rel (Parse.sequence (n + 1) close) (Parse.sequence (k + 1) close) := by
  rw [Parse.sequence, Parse.sequence]
  refine h.bind h.peek fun t => ?_
  dsimp only
  split_ifs
  · exact h.pure _
  · exact h.bind ih.expression fun _ => h.bind (h.accept _) fun _ =>
      h.bind (ih.sequence close) fun _ => h.pure _

theorem entries_succ : rel (Parse.entries (n + 1)) (Parse.entries (k + 1)) := by
  rw [Parse.entries, Parse.entries]
  refine h.bind h.peek fun t => ?_
  split_ifs
  · exact h.pure _
  · exact h.bind ih.key fun _ => h.bind (h.expect _) fun _ => h.bind ih.expression fun _ =>
      h.bind (h.accept _) fun _ => h.bind ih.entries fun _ => h.pure _

theorem key_succ : rel (Parse.key (n + 1)) (Parse.key (k + 1)) := by
  rw [Parse.key, Parse.key]
  refine h.bind (h.accept _) fun bracketed => ?_
  split_ifs
  · refine h.bind h.peek fun t => h.bind h.peekSecond fun u => ?_
    dsimp only
    split_ifs
    · exact h.bind h.ident fun _ => h.bind (h.pure _) fun _ => h.bind (h.expect _) fun _ =>
        h.pure _
    · exact h.bind ih.expression fun _ => h.bind (h.pure _) fun _ => h.bind (h.expect _) fun _ =>
        h.pure _
  · refine h.bind h.peek fun t => ?_
    split_ifs
    · exact h.bind h.ident fun _ => h.pure _
    · exact h.bind h.peek fun t => h.nonExpression t

theorem routine_succ (hnk : n ≤ k) (named : Bool) :
    rel (Parse.routine (n + 1) named) (Parse.routine (k + 1) named) := by
  have rest (name : Option Ident) (start : Token) :
      rel (do
        let _ ← expect (.symbol .leftParen)
        let parameters ← parameters n
        let _ ← expect (.symbol .rightParen)
        let body ← Parse.body n
        let close ← expect (.keyword .fim)
        pure (Routine.mk name parameters body (start.span.merge close.span)))
      (do
        let _ ← expect (.symbol .leftParen)
        let parameters ← parameters k
        let _ ← expect (.symbol .rightParen)
        let body ← Parse.body k
        let close ← expect (.keyword .fim)
        pure (Routine.mk name parameters body (start.span.merge close.span))) :=
    h.bind (h.expect _) fun _ => h.bind (h.parameters hnk) fun _ => h.bind (h.expect _) fun _ =>
      h.bind ih.body fun _ => h.bind (h.expect _) fun _ => h.pure _
  rw [Parse.routine, Parse.routine]
  refine h.bind (h.expect _) fun start => ?_
  cases named with
  | true => exact h.bind h.ident fun name => h.bind (h.pure _) fun _ => rest _ start
  | false => exact h.bind (h.pure _) fun _ => rest _ start

theorem body_succ : rel (Parse.body (n + 1)) (Parse.body (k + 1)) := by
  rw [Parse.body, Parse.body]
  refine h.bind h.peek fun t => ?_
  split_ifs
  · exact h.pure _
  · exact h.bind ih.statement fun _ => h.bind ih.body fun _ => h.pure _

theorem statement_succ : rel (Parse.statement (n + 1)) (Parse.statement (k + 1)) := by
  rw [Parse.statement, Parse.statement]
  refine h.bind h.peek fun t => ?_
  split
  · exact h.bind h.advance fun _ => h.bind h.ident fun _ => h.bind (h.expect _) fun _ =>
      h.bind ih.expression fun _ => h.pure _
  · exact h.bind h.advance fun _ => h.bind ih.body fun _ => h.bind (h.expect _) fun _ => h.pure _
  · exact h.bind h.advance fun _ => h.bind ih.expression fun _ => h.bind (h.expect _) fun _ =>
      h.bind ih.body fun _ => h.bind (h.expect _) fun _ => h.pure _
  · refine h.bind h.advance fun _ => h.bind (h.accept _) fun each => ?_
    split_ifs
    · exact ih.eachLoop t
    · exact ih.countLoop t
  · exact h.bind h.advance fun _ => ih.conditional t
  · exact h.bind h.advance fun _ => h.pure _
  · exact h.bind h.advance fun _ => h.pure _
  · exact h.bind h.advance fun _ => ih.returnValues t
  · refine h.bind h.peekSecond fun u => ?_
    split_ifs
    · exact h.bind (ih.routine true) fun _ => h.pure _
    · exact ih.expressionStatement
  · exact ih.expressionStatement

theorem expressionStatement_succ :
    rel (Parse.expressionStatement (n + 1)) (Parse.expressionStatement (k + 1)) := by
  rw [Parse.expressionStatement, Parse.expressionStatement]
  refine h.bind ih.expression fun left => h.bind (h.accept _) fun equal => ?_
  split_ifs
  · exact h.bind ih.expression fun _ => h.bind (h.target left) fun _ => h.pure _
  · exact h.pure _

theorem assignment_succ : rel (Parse.assignment (n + 1)) (Parse.assignment (k + 1)) := by
  rw [Parse.assignment, Parse.assignment]
  exact h.bind ih.expression fun left => h.bind (h.expect _) fun _ => h.bind ih.expression fun _ =>
    h.bind (h.target left) fun _ => h.pure _

theorem clause_succ (keyword : Keyword) :
    rel (Parse.clause (n + 1) keyword) (Parse.clause (k + 1) keyword) := by
  rw [Parse.clause, Parse.clause]
  refine h.bind (h.accept _) fun given => ?_
  split_ifs
  · exact h.bind ih.expression fun _ => h.pure _
  · exact h.pure _

theorem countLoop_succ (start : Token) :
    rel (Parse.countLoop (n + 1) start) (Parse.countLoop (k + 1) start) := by
  have rest (counter : Ident) (first limit : Option Expression) (step : Option Assignment) :
      rel (do
        let _ ← expect (.keyword .faca)
        let body ← Parse.body n
        let close ← expect (.keyword .fim)
        pure (Statement.countLoop counter first limit step body (start.span.merge close.span)))
      (do
        let _ ← expect (.keyword .faca)
        let body ← Parse.body k
        let close ← expect (.keyword .fim)
        pure (Statement.countLoop counter first limit step body (start.span.merge close.span))) :=
    h.bind (h.expect _) fun _ => h.bind ih.body fun _ => h.bind (h.expect _) fun _ => h.pure _
  rw [Parse.countLoop, Parse.countLoop]
  refine h.bind h.ident fun counter => h.bind (ih.clause _) fun first =>
    h.bind (ih.clause _) fun limit => h.bind (h.accept _) fun opere => ?_
  split_ifs
  · exact h.bind ih.assignment fun _ => h.bind (h.pure _) fun step => rest counter first limit step
  · exact h.bind (h.pure _) fun step => rest counter first limit step

theorem eachLoop_succ (start : Token) :
    rel (Parse.eachLoop (n + 1) start) (Parse.eachLoop (k + 1) start) := by
  rw [Parse.eachLoop, Parse.eachLoop]
  exact h.bind h.ident fun _ => h.bind (h.expect _) fun _ => h.bind h.ident fun _ =>
    h.bind (h.expect _) fun _ => h.bind ih.expression fun _ => h.bind (h.expect _) fun _ =>
    h.bind ih.body fun _ => h.bind (h.expect _) fun _ => h.pure _

theorem conditional_succ (start : Token) :
    rel (Parse.conditional (n + 1) start) (Parse.conditional (k + 1) start) := by
  rw [Parse.conditional, Parse.conditional]
  refine h.bind ih.branches fun found => h.bind (h.accept _) fun otherwise => ?_
  split_ifs
  · exact h.bind (h.expect _) fun _ => h.bind ih.body fun _ => h.bind (h.expect _) fun _ =>
      h.pure _
  · exact h.pure _

theorem branches_succ : rel (Parse.branches (n + 1)) (Parse.branches (k + 1)) := by
  rw [Parse.branches, Parse.branches]
  refine h.bind ih.expression fun condition => h.bind (h.expect _) fun _ =>
    h.bind ih.body fun body => h.bind (h.expect _) fun close => h.bind (h.accept _) fun more => ?_
  split_ifs
  · exact h.bind ih.branches fun _ => h.pure _
  · exact h.pure _

theorem returnValues_succ (start : Token) :
    rel (Parse.returnValues (n + 1) start) (Parse.returnValues (k + 1) start) := by
  rw [Parse.returnValues, Parse.returnValues]
  refine h.bind (h.optional ih.expression) fun first => ?_
  cases first with
  | none => exact h.pure _
  | some first => exact h.bind ih.moreValues fun _ => h.pure _

theorem moreValues_succ : rel (Parse.moreValues (n + 1)) (Parse.moreValues (k + 1)) := by
  rw [Parse.moreValues, Parse.moreValues]
  refine h.bind (h.accept _) fun more => ?_
  split_ifs
  · exact h.bind ih.expression fun _ => h.bind ih.moreValues fun _ => h.pure _
  · exact h.pure _

theorem succ (hnk : n ≤ k) : Agree (@rel) (n + 1) (k + 1) where
  expression := ih.operation .logical
  operation tier := h.bind (ih.operand tier) fun left => ih.chain tier left
  operand := ih.operand_succ
  chain := ih.chain_succ h
  factor := ih.factor_succ h
  suffixes := ih.suffixes_succ h
  primary := ih.primary_succ h
  sequence := ih.sequence_succ h
  entries := ih.entries_succ h
  key := ih.key_succ h
  routine := ih.routine_succ h hnk
  body := ih.body_succ h
  statement := ih.statement_succ h
  expressionStatement := ih.expressionStatement_succ h
  assignment := ih.assignment_succ h
  clause := ih.clause_succ h
  countLoop := ih.countLoop_succ h
  eachLoop := ih.eachLoop_succ h
  conditional := ih.conditional_succ h
  branches := ih.branches_succ h
  returnValues := ih.returnValues_succ h
  moreValues := ih.moreValues_succ h

end Step

end Agree

/-- A congruence holds between the grammar with some fuel and the grammar with more. -/
theorem Congruent.agree {rel : ∀ {α : Type}, Parse α → Parse α → Prop} (h : Congruent (@rel))
    {n k : Nat} (hnk : n ≤ k) : Agree (@rel) n k := by
  induction n generalizing k with
  | zero => exact .zero h k
  | succ n ih =>
    obtain ⟨k, rfl⟩ : ∃ j, k = j + 1 := ⟨k - 1, by omega⟩
    exact (ih (by omega)).succ h (by omega)

end Parse

/-! ### what is left of the tokens -/

/-- What an answer leaves, be it a result or an error. -/
def Parsed.rest? {α : Type} : Parsed α → Option Tokens
  | .ok _ rest => some rest
  | .fail _ rest => some rest
  | .exhausted => none

namespace Tokens

theorem uses_advance (ts : Tokens) : ts.Uses (ts.ahead.take 1) ts.advance :=
  ⟨(List.take_append_drop 1 ts.ahead).symm, rfl⟩

/-- Fuel that is enough for some tokens is enough for those that are left of them. -/
theorem Uses.fuel_le {ts rest : Tokens} {used : List Token} (h : ts.Uses used rest) :
    rest.fuel ≤ ts.fuel := by
  have := h.length
  simp only [fuel]
  omega

end Tokens

namespace Parse

variable {α β : Type} {p q : Parse α} {f g : α → Parse β} {ts rest : Tokens}

/-- What one parser after another leaves is left by the second, or by the first that failed. -/
theorem of_rest?_bind (h : ((p >>= f) ts).rest? = some rest) :
    (∃ a mid, p ts = .ok a mid ∧ (f a mid).rest? = some rest) ∨ ∃ e, p ts = .fail e rest := by
  change (Parse.bind p f ts).rest? = some rest at h
  unfold Parse.bind at h
  cases hp : p ts with
  | ok a mid =>
    rw [hp] at h
    exact .inl ⟨a, mid, rfl, h⟩
  | fail e mid =>
    rw [hp] at h
    cases h
    exact .inr ⟨e, rfl⟩
  | exhausted =>
    rw [hp] at h
    cases h

/-- A parser never goes back: what it leaves is what it has not used. -/
def Forward (p : Parse α) : Prop :=
  ∀ ts rest, (p ts).rest? = some rest → ∃ used, ts.Uses used rest

namespace Forward

theorem bind (hp : p.Forward) (hf : ∀ a, (f a).Forward) : (p >>= f).Forward := by
  intro ts rest h
  rcases of_rest?_bind h with ⟨a, mid, hok, hrest⟩ | ⟨e, hfail⟩
  · obtain ⟨used, hused⟩ := hp ts mid (by rw [hok]; rfl)
    obtain ⟨more, hmore⟩ := hf a mid rest hrest
    exact ⟨_, hused.trans hmore⟩
  · exact hp ts rest (by rw [hfail]; rfl)

/-- Where a parser stays. -/
theorem of_stays (h : ∀ ts rest, (p ts).rest? = some rest → rest = ts) : p.Forward := by
  intro ts rest hrest
  obtain rfl := h ts rest hrest
  exact ⟨[], .refl _⟩

theorem optional (hp : p.Forward) : (Parse.optional p).Forward := by
  intro ts rest h
  unfold Parse.optional at h
  cases answer : p ts with
  | ok a mid =>
    rw [answer] at h
    cases h
    exact hp ts _ (by rw [answer]; rfl)
  | fail e mid =>
    rw [answer] at h
    dsimp only at h
    split_ifs at h with unmoved
    · cases h
      exact ⟨[], .refl _⟩
    · cases h
      exact hp ts _ (by rw [answer]; rfl)
  | exhausted =>
    rw [answer] at h
    cases h

theorem accept (kind : Kind) : (Parse.accept kind).Forward := by
  intro ts rest h
  unfold Parse.accept at h
  split_ifs at h
  · cases h
    exact ⟨_, ts.uses_advance⟩
  · cases h
    exact ⟨[], .refl _⟩

theorem expect (kind : Kind) : (Parse.expect kind).Forward := by
  intro ts rest h
  unfold Parse.expect at h
  dsimp only at h
  split_ifs at h
  · cases h
    exact ⟨_, ts.uses_advance⟩
  · cases h
    exact ⟨[], .refl _⟩
  · cases h
    exact ⟨[], .refl _⟩

theorem exhausted : (Parse.exhausted : Parse α).Forward := by
  intro ts rest h
  cases h

theorem advance : Parse.advance.Forward := by
  intro ts rest h
  cases h
  exact ⟨_, ts.uses_advance⟩

theorem congruent : Congruent fun {_} p _ => Forward p where
  pure _ := of_stays fun _ _ h => (Option.some.inj h).symm
  bind := bind
  exhausted _ := exhausted
  fail _ _ := of_stays fun _ _ h => (Option.some.inj h).symm
  peek := of_stays fun _ _ h => (Option.some.inj h).symm
  peekSecond := of_stays fun _ _ h => (Option.some.inj h).symm
  advance := advance
  accept := accept
  expect := expect
  optional := optional

end Forward

/-- No function of the grammar goes back. -/
theorem forward (fuel : Nat) : Agree (fun {_} p _ => Forward p) fuel fuel :=
  Forward.congruent.agree le_rfl

/-! ### fuel -/

/-- `q` goes on where `p` is out of fuel, and does the same everywhere else. -/
def Extends (p q : Parse α) : Prop :=
  ∀ ts, p ts ≠ .exhausted → q ts = p ts

namespace Extends

theorem refl (p : Parse α) : Extends p p := fun _ _ => rfl

theorem bind (hp : Extends p q) (hf : ∀ a, Extends (f a) (g a)) : Extends (p >>= f) (q >>= g) := by
  intro ts h
  change Parse.bind p f ts ≠ .exhausted at h
  change Parse.bind q g ts = Parse.bind p f ts
  unfold Parse.bind at h ⊢
  have same := hp ts
  cases answer : p ts with
  | ok a mid =>
    rw [answer] at same h
    rw [same nofun]
    exact hf a mid h
  | fail e mid =>
    rw [answer] at same
    rw [same nofun]
  | exhausted =>
    rw [answer] at h
    exact absurd rfl h

theorem optional (hp : Extends p q) : Extends (Parse.optional p) (Parse.optional q) := by
  intro ts h
  unfold Parse.optional at h ⊢
  rw [hp ts]
  rintro answer
  rw [answer] at h
  exact h rfl

theorem congruent : Congruent @Extends where
  pure _ := refl _
  bind := bind
  exhausted _ := fun _ h => absurd rfl h
  fail _ _ := refl _
  peek := refl _
  peekSecond := refl _
  advance := refl _
  accept _ := refl _
  expect _ := refl _
  optional := optional

end Extends

end Parse

/-- The answer of the expression parser, with fuel that is enough. -/
def Tokens.expression (ts : Tokens) : Parsed Expression :=
  Parse.expression ts.fuel ts

/-- Enough fuel does not run out. -/
theorem Tokens.Ended.expression_ne_exhausted {ts : Tokens} (hts : ts.Ended) :
    ts.expression ≠ .exhausted := by
  intro exhausted
  have out := (Parse.SoundGroup.all ts.fuel).expression ts hts
  change Parse.expression ts.fuel ts = .exhausted at exhausted
  rw [Parse.Answers, exhausted] at out
  simp only [Tokens.fuel] at out
  omega

/-- With enough fuel, the answer does not depend on it. -/
theorem Tokens.Ended.expression_eq {ts : Tokens} (hts : ts.Ended) {fuel : Nat}
    (hfuel : ts.fuel ≤ fuel) : Parse.expression fuel ts = ts.expression :=
  (Parse.Extends.congruent.agree hfuel).expression ts hts.expression_ne_exhausted

end Roteiro
