import Roteiro.Parser.Source
import Roteiro.Proofs.Parser.Soundness
import Roteiro.Proofs.Tree.Bare

/-!
Layout means nothing to the parser. A *bare* token has no place, and no text unless it is a name, a
number or a string. On bare tokens every parser does what it does on the tokens themselves, without
places: the same tree, the same fault, the same tokens left (`Parse.Bares`). So two sources with the
same bare tokens are the same script, or are rejected for the same fault (`Program.bareOf_eq`).
-/

namespace Roteiro

/-! ### trees without places -/

theorem Span.merge_nowhere : Span.nowhere.merge .nowhere = .nowhere := rfl

theorem Routine.span_bare (r : Routine) : r.bare.span = .nowhere := by
  cases r
  rw [Routine.bare, Routine.span]

theorem Expression.span_bare (e : Expression) : e.bare.span = .nowhere := by
  cases e with
  | function routine => exact routine.span_bare
  | _ => rfl

/-- A script without its spans. -/
def Program.bare (p : Program) : Program :=
  ⟨Statement.bareAll p.statements, .nowhere⟩

/-! ### tokens without places -/

/-- Tokens of one kind and, if they are names, numbers or strings, of one text. -/
structure Token.Alike (t u : Token) : Prop where
  kind : t.kind = u.kind
  lexeme : t.kind = .identifier ∨ t.kind = .number ∨ t.kind = .string → t.lexeme = u.lexeme

instance (t u : Token) : Decidable (t.Alike u) :=
  decidable_of_iff
    (t.kind = u.kind ∧
      (t.kind = .identifier ∨ t.kind = .number ∨ t.kind = .string → t.lexeme = u.lexeme))
    ⟨fun h => ⟨h.1, h.2⟩, fun h => ⟨h.kind, h.lexeme⟩⟩

/-- A token without its place. -/
def Token.bare (t : Token) : Token where
  kind := t.kind
  lexeme := if t.kind = .identifier ∨ t.kind = .number ∨ t.kind = .string then t.lexeme else ""
  span := .nowhere
  line := 0

@[simp] theorem Token.kind_bare (t : Token) : t.bare.kind = t.kind := rfl

@[simp] theorem Token.span_bare (t : Token) : t.bare.span = .nowhere := rfl

theorem Token.Alike.bare {t u : Token} (h : t.Alike u) : t.bare = u.bare := by
  unfold Token.bare
  rw [← h.kind]
  split_ifs with spelled
  · rw [h.lexeme spelled]
  · rfl

theorem Token.map_bare_of_alike {ts us : List Token} (h : List.Forall₂ Token.Alike ts us) :
    ts.map Token.bare = us.map Token.bare := by
  induction h with
  | nil => rfl
  | cons first _ ih => rw [List.map_cons, List.map_cons, first.bare, ih]

/-- The text of a name is kept. -/
theorem Token.lexeme_bare {t : Token} (h : t.kind = .identifier) : t.bare.lexeme = t.lexeme :=
  if_pos (.inl h)

namespace Tokens

def bare (ts : Tokens) : Tokens :=
  ⟨ts.ahead.map Token.bare, ts.finish.bare⟩

@[simp] theorem peek_bare (ts : Tokens) : ts.bare.peek = ts.peek.bare := by
  obtain ⟨_ | ⟨t, ts⟩, finish⟩ := ts
  · rfl
  · rfl

@[simp] theorem peekSecond_bare (ts : Tokens) : ts.bare.peekSecond = ts.peekSecond.bare := by
  obtain ⟨_ | ⟨t, _ | ⟨u, ts⟩⟩, finish⟩ := ts
  · rfl
  · rfl
  · rfl

@[simp] theorem advance_bare (ts : Tokens) : ts.bare.advance = ts.advance.bare := by
  obtain ⟨_ | ⟨t, ts⟩, finish⟩ := ts
  · rfl
  · rfl

@[simp] theorem length_bare (ts : Tokens) : ts.bare.ahead.length = ts.ahead.length :=
  List.length_map _

end Tokens

/-! ### parsers on bare tokens -/

/-- An answer without places; `f` takes them from the result. -/
def Parsed.bare {α β : Type} (f : α → β) : Parsed α → Parsed β
  | .ok a rest => .ok (f a) rest.bare
  | .fail e rest => .fail ⟨e.fault, .nowhere⟩ rest.bare
  | .exhausted => .exhausted

namespace Parse

/-- On bare tokens `q` answers as `p` does, without places. -/
def Bares {α β : Type} (f : α → β) (p : Parse α) (q : Parse β) : Prop :=
  ∀ ts : Tokens, q ts.bare = (p ts).bare f

namespace Bares

variable {α β γ δ : Type} {f : α → β} {g : γ → δ}

theorem pure {a : α} {b : β} (h : b = f a) : Bares f (Pure.pure a) (Pure.pure b) := by
  intro ts
  rw [h]
  rfl

theorem exhausted : Bares f Parse.exhausted Parse.exhausted :=
  fun _ => rfl

theorem fail (fault : SyntaxFault) {s t : Span} (h : t = .nowhere) :
    Bares f (Parse.fail fault s) (Parse.fail fault t) := by
  intro ts
  rw [h]
  rfl

theorem bind {p : Parse α} {q : Parse β} {k : α → Parse γ} {l : β → Parse δ} (hp : Bares f p q)
    (hk : ∀ a, Bares g (k a) (l (f a))) : Bares g (p >>= k) (q >>= l) := by
  intro ts
  change Parse.bind q l ts.bare = (Parse.bind p k ts).bare g
  unfold Parse.bind
  rw [hp ts]
  cases p ts with
  | ok a rest => exact hk a rest
  | fail e rest => rfl
  | exhausted => rfl

/-- The current token goes on, seen as it is on either side. -/
theorem peek {k : Token → Parse γ} {l : Token → Parse δ} (hk : ∀ t, Bares g (k t) (l t.bare)) :
    Bares g (Parse.peek >>= k) (Parse.peek >>= l) := by
  refine bind (f := Token.bare) (fun ts => ?_) hk
  change Parsed.ok ts.bare.peek ts.bare = _
  rw [ts.peek_bare]
  rfl

theorem peekSecond {k : Token → Parse γ} {l : Token → Parse δ}
    (hk : ∀ t, Bares g (k t) (l t.bare)) :
    Bares g (Parse.peekSecond >>= k) (Parse.peekSecond >>= l) := by
  refine bind (f := Token.bare) (fun ts => ?_) hk
  change Parsed.ok ts.bare.peekSecond ts.bare = _
  rw [ts.peekSecond_bare]
  rfl

theorem advance {k : Token → Parse γ} {l : Token → Parse δ} (hk : ∀ t, Bares g (k t) (l t.bare)) :
    Bares g (Parse.advance >>= k) (Parse.advance >>= l) := by
  refine bind (f := Token.bare) (fun ts => ?_) hk
  change Parsed.ok ts.bare.peek ts.bare.advance = _
  rw [ts.peek_bare, ts.advance_bare]
  rfl

theorem accept (kind : Kind) {k : Bool → Parse γ} {l : Bool → Parse δ}
    (hk : ∀ b, Bares g (k b) (l b)) :
    Bares g (Parse.accept kind >>= k) (Parse.accept kind >>= l) := by
  refine bind (f := id) (fun ts => ?_) hk
  unfold Parse.accept
  rw [ts.peek_bare, ts.advance_bare, Token.kind_bare]
  split_ifs with h
  · rfl
  · rfl

theorem of_expect (kind : Kind) : Bares Token.bare (Parse.expect kind) (Parse.expect kind) := by
  intro ts
  unfold Parse.expect
  dsimp only
  rw [ts.peek_bare, ts.advance_bare, Token.kind_bare]
  split_ifs with h end_
  · rfl
  · rfl
  · rfl

theorem expect (kind : Kind) {k : Token → Parse γ} {l : Token → Parse δ}
    (hk : ∀ t, Bares g (k t) (l t.bare)) :
    Bares g (Parse.expect kind >>= k) (Parse.expect kind >>= l) :=
  bind (of_expect kind) hk

theorem of_ident : Bares Ident.bare Parse.ident Parse.ident := by
  intro ts
  change Parse.bind (Parse.expect .identifier) _ ts.bare =
    (Parse.bind (Parse.expect .identifier) _ ts).bare Ident.bare
  unfold Parse.bind
  rw [of_expect .identifier ts]
  unfold Parse.expect
  dsimp only
  split_ifs with named finished
  · change Parsed.ok (Ident.mk ts.peek.bare.lexeme .nowhere) _ = _
    rw [Token.lexeme_bare named]
    rfl
  · rfl
  · rfl

theorem ident {k : Ident → Parse γ} {l : Ident → Parse δ} (hk : ∀ x, Bares g (k x) (l x.bare)) :
    Bares g (Parse.ident >>= k) (Parse.ident >>= l) :=
  bind of_ident hk

theorem nonExpression (t : Token) :
    Bares f (Parse.nonExpression t) (Parse.nonExpression t.bare) :=
  fail _ rfl

theorem optional {p : Parse α} {q : Parse β} (h : Bares f p q) :
    Bares (Option.map f) (Parse.optional p) (Parse.optional q) := by
  intro ts
  unfold Parse.optional
  rw [h ts]
  cases p ts with
  | ok a rest => rfl
  | fail e rest =>
    dsimp only [Parsed.bare]
    rw [rest.length_bare, ts.length_bare]
    split_ifs with same
    · rfl
    · rfl
  | exhausted => rfl

end Bares

theorem atom?_bare (t : Token) : atom? t.bare = (atom? t).map Atom.bare := by
  unfold atom? Token.bare
  dsimp only
  cases kind : t.kind with
  | keyword k => cases k <;> rfl
  | _ => rfl

/-! ### the grammar -/

/-- With this much fuel all functions of the parser do the same on bare tokens. -/
structure BareGroup (fuel : Nat) : Prop where
  expression : Bares Expression.bare (Parse.expression fuel) (Parse.expression fuel)
  operation : ∀ tier,
    Bares Expression.bare (Parse.operation fuel tier) (Parse.operation fuel tier)
  operand : ∀ tier, Bares Expression.bare (Parse.operand fuel tier) (Parse.operand fuel tier)
  chain : ∀ tier e,
    Bares Expression.bare (Parse.chain fuel tier e) (Parse.chain fuel tier e.bare)
  factor : Bares Expression.bare (Parse.factor fuel) (Parse.factor fuel)
  suffixes : ∀ e, Bares Expression.bare (Parse.suffixes fuel e) (Parse.suffixes fuel e.bare)
  primary : Bares Expression.bare (Parse.primary fuel) (Parse.primary fuel)
  sequence : ∀ close,
    Bares Expression.bareAll (Parse.sequence fuel close) (Parse.sequence fuel close)
  entries : Bares Entry.bareAll (Parse.entries fuel) (Parse.entries fuel)
  key : Bares Key.bare (Parse.key fuel) (Parse.key fuel)
  routine : ∀ named, Bares Routine.bare (Parse.routine fuel named) (Parse.routine fuel named)
  body : Bares Statement.bareAll (Parse.body fuel) (Parse.body fuel)
  statement : Bares Statement.bare (Parse.statement fuel) (Parse.statement fuel)
  expressionStatement :
    Bares Statement.bare (Parse.expressionStatement fuel) (Parse.expressionStatement fuel)
  assignment : Bares Assignment.bare (Parse.assignment fuel) (Parse.assignment fuel)
  clause : ∀ keyword,
    Bares Expression.bareOption (Parse.clause fuel keyword) (Parse.clause fuel keyword)
  countLoop : ∀ t, Bares Statement.bare (Parse.countLoop fuel t) (Parse.countLoop fuel t.bare)
  eachLoop : ∀ t, Bares Statement.bare (Parse.eachLoop fuel t) (Parse.eachLoop fuel t.bare)
  conditional : ∀ t, Bares Statement.bare (Parse.conditional fuel t) (Parse.conditional fuel t.bare)
  branches :
    Bares (Prod.map Branch.bareAll Token.bare) (Parse.branches fuel) (Parse.branches fuel)
  returnValues : ∀ t,
    Bares Statement.bare (Parse.returnValues fuel t) (Parse.returnValues fuel t.bare)
  moreValues : Bares Expression.bareAll (Parse.moreValues fuel) (Parse.moreValues fuel)

theorem bares_parameters (fuel : Nat) :
    Bares (List.map Ident.bare) (Parse.parameters fuel) (Parse.parameters fuel) := by
  induction fuel with
  | zero => exact .exhausted
  | succ fuel ih =>
    rw [Parse.parameters]
    refine .peek fun t => ?_
    rw [Token.kind_bare]
    split_ifs with named
    · refine .ident fun name => ?_
      refine .accept _ fun _ => ?_
      exact .bind ih fun rest => .pure rfl
    · exact .pure rfl

theorem bares_target (e : Expression) : Bares Target.bare (target e) (target e.bare) := by
  unfold target
  cases e with
  | atom a span =>
    cases a with
    | identifier name => exact .pure rfl
    | _ => exact .fail _ rfl
  | property object key span => exact .pure rfl
  | function routine => exact .fail _ routine.span_bare
  | _ => exact .fail _ rfl

namespace BareGroup

variable {fuel : Nat} (ih : BareGroup fuel)

include ih

theorem expression_succ :
    Bares Expression.bare (Parse.expression (fuel + 1)) (Parse.expression (fuel + 1)) := by
  rw [Parse.expression]
  exact ih.operation .logical

theorem operation_succ (tier : Tier) :
    Bares Expression.bare (Parse.operation (fuel + 1) tier) (Parse.operation (fuel + 1) tier) := by
  rw [Parse.operation]
  exact .bind (ih.operand tier) fun left => ih.chain tier left

theorem operand_succ (tier : Tier) :
    Bares Expression.bare (Parse.operand (fuel + 1) tier) (Parse.operand (fuel + 1) tier) := by
  cases tier with
  | logical => exact ih.operation .comparison
  | comparison => exact ih.operation .additive
  | additive => exact ih.operation .multiplicative
  | multiplicative => exact ih.factor

theorem chain_succ (tier : Tier) (left : Expression) : Bares Expression.bare
    (Parse.chain (fuel + 1) tier left) (Parse.chain (fuel + 1) tier left.bare) := by
  rw [Parse.chain, Parse.chain]
  refine .peek fun t => ?_
  rw [Token.kind_bare]
  cases operator? tier t.kind with
  | none => exact .pure rfl
  | some op =>
    refine .advance fun _ => ?_
    refine .bind (ih.operand tier) fun right => ?_
    rw [left.span_bare, right.span_bare, Span.merge_nowhere]
    exact ih.chain tier (.binary op left right _)

theorem factor_succ : Bares Expression.bare (Parse.factor (fuel + 1)) (Parse.factor (fuel + 1)) := by
  rw [Parse.factor]
  refine .peek fun t => ?_
  rw [Token.kind_bare]
  split_ifs with negated
  · refine .advance fun _ => ?_
    refine .bind ih.factor fun operand => .pure ?_
    rw [operand.span_bare]
    rfl
  · exact .bind ih.primary fun head => ih.suffixes head

theorem suffixes_succ (head : Expression) : Bares Expression.bare
    (Parse.suffixes (fuel + 1) head) (Parse.suffixes (fuel + 1) head.bare) := by
  rw [Parse.suffixes, Parse.suffixes]
  refine .peek fun t => ?_
  rw [Token.kind_bare]
  split
  · refine .advance fun _ => ?_
    refine .bind (ih.sequence _) fun arguments => ?_
    refine .expect _ fun close => ?_
    rw [head.span_bare, close.span_bare, Span.merge_nowhere]
    exact ih.suffixes (.call head arguments _)
  · refine .advance fun _ => ?_
    refine .ident fun name => ?_
    rw [head.span_bare]
    exact ih.suffixes (.property head (.atom (.string name.text) name.span) _)
  · refine .advance fun _ => ?_
    refine .bind ih.expression fun key => ?_
    refine .expect _ fun close => ?_
    rw [head.span_bare, close.span_bare, Span.merge_nowhere]
    exact ih.suffixes (.property head key _)
  · exact .pure rfl

theorem primary_succ :
    Bares Expression.bare (Parse.primary (fuel + 1)) (Parse.primary (fuel + 1)) := by
  rw [Parse.primary]
  refine .peek fun t => ?_
  rw [atom?_bare]
  cases atom? t with
  | some atom => exact .advance fun _ => .pure rfl
  | none =>
    dsimp only [Option.map_none]
    rw [Token.kind_bare]
    split
    · refine .advance fun _ => ?_
      refine .bind ih.expression fun inner => ?_
      exact .expect _ fun _ => .pure rfl
    · refine .advance fun _ => ?_
      refine .bind (ih.sequence _) fun items => ?_
      exact .expect _ fun close => .pure rfl
    · refine .advance fun _ => ?_
      refine .bind ih.entries fun entries => ?_
      exact .expect _ fun close => .pure rfl
    · exact .bind (ih.routine false) fun routine => .pure rfl
    · exact .nonExpression t

theorem sequence_succ (close : Kind) : Bares Expression.bareAll
    (Parse.sequence (fuel + 1) close) (Parse.sequence (fuel + 1) close) := by
  rw [Parse.sequence]
  refine .peek fun t => ?_
  rw [Token.kind_bare]
  dsimp only
  split_ifs with closed
  · exact .pure rfl
  · refine .bind ih.expression fun item => ?_
    refine .accept _ fun _ => ?_
    exact .bind (ih.sequence close) fun rest => .pure rfl

theorem entries_succ : Bares Entry.bareAll (Parse.entries (fuel + 1)) (Parse.entries (fuel + 1)) := by
  rw [Parse.entries]
  refine .peek fun t => ?_
  rw [Token.kind_bare]
  split_ifs with closed
  · exact .pure rfl
  · refine .bind ih.key fun key => ?_
    refine .expect _ fun _ => ?_
    refine .bind ih.expression fun value => ?_
    refine .accept _ fun _ => ?_
    exact .bind ih.entries fun rest => .pure rfl

theorem key_succ : Bares Key.bare (Parse.key (fuel + 1)) (Parse.key (fuel + 1)) := by
  rw [Parse.key]
  refine .accept _ fun bracketed => ?_
  cases bracketed with
  | true =>
    have tail (key : Key) : Bares Key.bare
        (Parse.expect (.symbol .rightBracket) >>= fun _ => pure key)
        (Parse.expect (.symbol .rightBracket) >>= fun _ => pure key.bare) :=
      .expect _ fun _ => .pure rfl
    refine .peek fun t => .peekSecond fun u => ?_
    rw [Token.kind_bare, Token.kind_bare]
    split_ifs with named
    · exact .ident fun name => tail (.name name)
    · exact .bind ih.expression fun key => tail (.computed key)
  | false =>
    refine .peek fun t => ?_
    rw [Token.kind_bare]
    split_ifs with named
    · exact .ident fun name => .pure rfl
    · exact .peek fun t => .nonExpression t

theorem routine_succ (named : Bool) : Bares Routine.bare
    (Parse.routine (fuel + 1) named) (Parse.routine (fuel + 1) named) := by
  rw [Parse.routine]
  refine .expect _ fun start => ?_
  let tail (start : Token) (name : Option Ident) : Parse Routine := do
    let _ ← expect (.symbol .leftParen)
    let parameters ← parameters fuel
    let _ ← expect (.symbol .rightParen)
    let body ← Parse.body fuel
    let close ← expect (.keyword .fim)
    pure (.mk name parameters body (start.span.merge close.span))
  have rest (name : Option Ident) :
      Bares Routine.bare (tail start name) (tail start.bare (name.map Ident.bare)) := by
    refine .expect _ fun _ => ?_
    refine .bind (bares_parameters fuel) fun parameters => ?_
    refine .expect _ fun _ => ?_
    refine .bind ih.body fun body => ?_
    exact .expect _ fun close => .pure rfl
  cases named with
  | true => exact .ident fun name => rest (some name)
  | false => exact rest none

theorem body_succ : Bares Statement.bareAll (Parse.body (fuel + 1)) (Parse.body (fuel + 1)) := by
  rw [Parse.body]
  refine .peek fun t => ?_
  rw [Token.kind_bare]
  split_ifs with closed
  · exact .pure rfl
  · refine .bind ih.statement fun first => ?_
    exact .bind ih.body fun rest => .pure rfl

theorem statement_succ :
    Bares Statement.bare (Parse.statement (fuel + 1)) (Parse.statement (fuel + 1)) := by
  rw [Parse.statement]
  refine .peek fun t => ?_
  rw [Token.kind_bare]
  split
  · refine .advance fun _ => ?_
    refine .ident fun name => ?_
    refine .expect _ fun _ => ?_
    refine .bind ih.expression fun value => .pure ?_
    rw [value.span_bare]
    rfl
  · refine .advance fun _ => ?_
    refine .bind ih.body fun body => ?_
    exact .expect _ fun close => .pure rfl
  · refine .advance fun _ => ?_
    refine .bind ih.expression fun condition => ?_
    refine .expect _ fun _ => ?_
    refine .bind ih.body fun body => ?_
    exact .expect _ fun close => .pure rfl
  · refine .advance fun _ => ?_
    refine .accept _ fun each => ?_
    cases each with
    | true => exact ih.eachLoop t
    | false => exact ih.countLoop t
  · exact .advance fun _ => ih.conditional t
  · exact .advance fun _ => .pure rfl
  · exact .advance fun _ => .pure rfl
  · exact .advance fun _ => ih.returnValues t
  · refine .peekSecond fun u => ?_
    rw [Token.kind_bare]
    split_ifs with named
    · exact .bind (ih.routine true) fun routine => .pure rfl
    · exact ih.expressionStatement
  · exact ih.expressionStatement

theorem expressionStatement_succ : Bares Statement.bare
    (Parse.expressionStatement (fuel + 1)) (Parse.expressionStatement (fuel + 1)) := by
  rw [Parse.expressionStatement]
  refine .bind ih.expression fun left => ?_
  refine .accept _ fun assigned => ?_
  cases assigned with
  | true =>
    refine .bind ih.expression fun value => ?_
    refine .bind (bares_target left) fun target => .pure ?_
    rw [left.span_bare, value.span_bare]
    rfl
  | false => exact .pure rfl

theorem assignment_succ :
    Bares Assignment.bare (Parse.assignment (fuel + 1)) (Parse.assignment (fuel + 1)) := by
  rw [Parse.assignment]
  refine .bind ih.expression fun left => ?_
  refine .expect _ fun _ => ?_
  refine .bind ih.expression fun value => ?_
  refine .bind (bares_target left) fun target => .pure ?_
  rw [left.span_bare, value.span_bare]
  rfl

theorem clause_succ (keyword : Keyword) : Bares Expression.bareOption
    (Parse.clause (fuel + 1) keyword) (Parse.clause (fuel + 1) keyword) := by
  rw [Parse.clause]
  refine .accept _ fun present => ?_
  cases present with
  | true => exact .bind ih.expression fun e => .pure rfl
  | false => exact .pure rfl

theorem countLoop_succ (t : Token) : Bares Statement.bare
    (Parse.countLoop (fuel + 1) t) (Parse.countLoop (fuel + 1) t.bare) := by
  rw [Parse.countLoop, Parse.countLoop]
  refine .ident fun counter => ?_
  refine .bind (ih.clause .de) fun first => ?_
  refine .bind (ih.clause .ate) fun limit => ?_
  refine .accept _ fun stepped => ?_
  let tail (t : Token) (counter : Ident) (first limit : Option Expression)
      (step : Option Assignment) : Parse Statement := do
    let _ ← expect (.keyword .faca)
    let body ← Parse.body fuel
    let close ← expect (.keyword .fim)
    pure (.countLoop counter first limit step body (t.span.merge close.span))
  have rest (step : Option Assignment) : Bares Statement.bare (tail t counter first limit step)
      (tail t.bare counter.bare (Expression.bareOption first) (Expression.bareOption limit)
        (Assignment.bareOption step)) := by
    refine .expect _ fun _ => ?_
    refine .bind ih.body fun body => ?_
    exact .expect _ fun close => .pure rfl
  cases stepped with
  | true => exact .bind ih.assignment fun a => rest (some a)
  | false => exact rest none

theorem eachLoop_succ (t : Token) : Bares Statement.bare
    (Parse.eachLoop (fuel + 1) t) (Parse.eachLoop (fuel + 1) t.bare) := by
  rw [Parse.eachLoop, Parse.eachLoop]
  refine .ident fun key => ?_
  refine .expect _ fun _ => ?_
  refine .ident fun value => ?_
  refine .expect _ fun _ => ?_
  refine .bind ih.expression fun collection => ?_
  refine .expect _ fun _ => ?_
  refine .bind ih.body fun body => ?_
  exact .expect _ fun close => .pure rfl

theorem conditional_succ (t : Token) : Bares Statement.bare
    (Parse.conditional (fuel + 1) t) (Parse.conditional (fuel + 1) t.bare) := by
  rw [Parse.conditional, Parse.conditional]
  refine .bind ih.branches fun parsed => ?_
  obtain ⟨branches, close⟩ := parsed
  refine .accept _ fun more => ?_
  cases more with
  | true =>
    refine .expect _ fun _ => ?_
    refine .bind ih.body fun otherwise => ?_
    exact .expect _ fun close => .pure rfl
  | false => exact .pure rfl

theorem branches_succ : Bares (Prod.map Branch.bareAll Token.bare)
    (Parse.branches (fuel + 1)) (Parse.branches (fuel + 1)) := by
  rw [Parse.branches]
  refine .bind ih.expression fun condition => ?_
  refine .expect _ fun _ => ?_
  refine .bind ih.body fun body => ?_
  refine .expect _ fun close => ?_
  refine .accept _ fun more => ?_
  cases more with
  | true => exact .bind ih.branches fun rest => .pure rfl
  | false => exact .pure rfl

omit ih in
/-- The span of the values of a return. -/
theorem foldl_merge_bare (es : List Expression) :
    (Expression.bareAll es).foldl (fun s e => Span.merge s e.span) .nowhere = .nowhere := by
  induction es with
  | nil => rfl
  | cons e es ih =>
    rw [Expression.bareAll, List.foldl_cons, e.span_bare]
    exact ih

theorem returnValues_succ (t : Token) : Bares Statement.bare
    (Parse.returnValues (fuel + 1) t) (Parse.returnValues (fuel + 1) t.bare) := by
  rw [Parse.returnValues, Parse.returnValues]
  refine .bind (.optional ih.expression) fun first => ?_
  cases first with
  | none => exact .pure rfl
  | some first =>
    refine .bind ih.moreValues fun rest => .pure ?_
    have whole := foldl_merge_bare (first :: rest)
    exact congrArg (Statement.returnValues _) whole

theorem moreValues_succ :
    Bares Expression.bareAll (Parse.moreValues (fuel + 1)) (Parse.moreValues (fuel + 1)) := by
  rw [Parse.moreValues]
  refine .accept _ fun more => ?_
  cases more with
  | true =>
    refine .bind ih.expression fun e => ?_
    exact .bind ih.moreValues fun rest => .pure rfl
  | false => exact .pure rfl

theorem succ : BareGroup (fuel + 1) where
  expression := ih.expression_succ
  operation := ih.operation_succ
  operand := ih.operand_succ
  chain := ih.chain_succ
  factor := ih.factor_succ
  suffixes := ih.suffixes_succ
  primary := ih.primary_succ
  sequence := ih.sequence_succ
  entries := ih.entries_succ
  key := ih.key_succ
  routine := ih.routine_succ
  body := ih.body_succ
  statement := ih.statement_succ
  expressionStatement := ih.expressionStatement_succ
  assignment := ih.assignment_succ
  clause := ih.clause_succ
  countLoop := ih.countLoop_succ
  eachLoop := ih.eachLoop_succ
  conditional := ih.conditional_succ
  branches := ih.branches_succ
  returnValues := ih.returnValues_succ
  moreValues := ih.moreValues_succ

omit ih in
theorem zero : BareGroup 0 := by
  constructor
  all_goals
    intros
    exact .exhausted

end BareGroup

theorem BareGroup.all (fuel : Nat) : BareGroup fuel := by
  induction fuel with
  | zero => exact .zero
  | succ fuel ih => exact ih.succ

theorem bares_statements (fuel : Nat) :
    Bares Statement.bareAll (statements fuel) (statements fuel) := by
  induction fuel with
  | zero => exact .exhausted
  | succ fuel ih =>
    rw [statements]
    refine .peek fun t => ?_
    rw [Token.kind_bare]
    split_ifs with finished
    · exact .pure rfl
    · refine .bind (BareGroup.all fuel).statement fun first => ?_
      exact .bind ih fun rest => .pure rfl

end Parse

/-! ### whole sources -/

/-- What a source is, without places: a script, or the fault for which it is none. -/
def Program.bareOf (source : String) : Except SyntaxFault Program :=
  match Program.ofText source with
  | .ok p => .ok p.bare
  | .error e => .error e.fault

/-- What statements and their absence mean for a script. -/
def Parsed.bareProgram : Parsed (List Statement) → Except SyntaxFault Program
  | .ok statements _ => .ok ⟨statements, .nowhere⟩
  | .fail e _ => .error e.fault
  | .exhausted => .error .unexpectedEnd

/-- A source is what the parser makes of its bare tokens. -/
theorem TokensOf.bareOf {source : String} {ts : List Token} {finish : Token}
    (h : TokensOf source ts finish) :
    Program.bareOf source =
      (Parse.statements (Tokens.mk ts finish).fuel (Tokens.mk ts finish).bare).bareProgram := by
  unfold Program.bareOf Program.ofText Parser.program
  dsimp only
  rw [h.run, Parse.bares_statements]
  cases Parse.statements (Tokens.mk ts finish).fuel ⟨ts, finish⟩ with
  | ok statements rest => rfl
  | fail e rest => rfl
  | exhausted => rfl

/-- **Sources with the same bare tokens are the same script**, places apart, or none for the same
fault. -/
theorem Program.bareOf_eq {source other : String} {ts us : List Token}
    (hts : tokenize source = ts.map .ok) (hus : tokenize other = us.map .ok)
    (alike : List.Forall₂ Token.Alike ts us) : Program.bareOf source = Program.bareOf other := by
  obtain ⟨ts, finish, rfl, tokens⟩ := TokensOf.of_tokens ((Lexer.tokensWithin_eq_ok_iff ..).2 hts)
  obtain ⟨us, last, rfl, others⟩ := TokensOf.of_tokens ((Lexer.tokensWithin_eq_ok_iff ..).2 hus)
  have bares := Token.map_bare_of_alike alike
  rw [List.map_append, List.map_append] at bares
  obtain ⟨ahead, ends⟩ := List.append_inj' bares rfl
  have same : (Tokens.mk ts finish).bare = (Tokens.mk us last).bare := by
    unfold Tokens.bare
    rw [ahead, List.singleton_inj.1 ends]
  have fuel : (Tokens.mk ts finish).fuel = (Tokens.mk us last).fuel := by
    unfold Tokens.fuel
    rw [← Tokens.length_bare, same, Tokens.length_bare]
  rw [tokens.bareOf, others.bareOf, same, fuel]

end Roteiro
