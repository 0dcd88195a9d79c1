import Roteiro.Proofs.Parser.Congruence
import Roteiro.Proofs.Parser.Progress

/-!
The values of a return. There may be none, so the first one is tried, and whether there was none is
told by where the parser stands after it failed. That is right, since an expression fails where it
began only if the token there cannot start one, and every other error is behind a token
(`Tokens.Ended.expression_fails_here_iff`). So a return without values is one that no expression
follows, and every other one has all its values or the error of one of them
(`Parse.return_hides_nothing`).
-/

namespace Roteiro

/-- The kinds of token that an expression starts with. -/
def Kind.startsExpression : Kind → Bool
  | .number | .string | .identifier => true
  | .keyword .verdadeiro | .keyword .falso | .keyword .nulo => true
  | .keyword .funcao | .keyword .negar => true
  | .symbol .leftParen | .symbol .leftBracket | .symbol .leftBrace | .symbol .minus => true
  | _ => false

namespace Parse

open Tokens

variable {α β : Type} {p : Parse α} {f : α → Parse β} {ts : Tokens} {fuel : Nat}

/-! ### tokens that start an expression -/

/-- Whatever the answer of a parser, it is behind a token. -/
def Moves (p : Parse α) (ts : Tokens) : Prop :=
  ∀ rest, (p ts).rest? = some rest → ts.Advances rest

theorem Moves.bind (hp : p.Moves ts) (hf : ∀ a, (f a).Forward) : (p >>= f).Moves ts := by
  intro rest h
  rcases of_rest?_bind h with ⟨a, mid, hok, hrest⟩ | ⟨e, hfail⟩
  · obtain ⟨used, hne, hused⟩ := hp mid (by rw [hok]; rfl)
    obtain ⟨more, hmore⟩ := hf a mid rest hrest
    exact ⟨used ++ more, by simp [hne], hused.trans hmore⟩
  · exact hp rest (by rw [hfail]; rfl)

/-- A parser that looks at the current token first. -/
theorem Moves.peek {f : Token → Parse β} (h : (f ts.peek).Moves ts) :
    (Parse.peek >>= f).Moves ts := h

theorem moves_exhausted : (exhausted : Parse α).Moves ts := by
  intro rest hrest
  cases hrest

theorem moves_advance (hts : ts.Ended) (h : ts.peek.kind ≠ .eof) : Parse.advance.Moves ts := by
  intro rest hrest
  cases hrest
  exact ⟨[ts.peek], by simp, hts.uses_peek h⟩

/-- The current token is used first, whatever comes then. -/
theorem moves_advance_bind {f : Token → Parse β} (hts : ts.Ended) (h : ts.peek.kind ≠ .eof)
    (hf : ∀ t, (f t).Forward) : (Parse.advance >>= f).Moves ts :=
  (moves_advance hts h).bind hf

theorem moves_expect {kind : Kind} (hts : ts.Ended) (h : ts.peek.kind = kind)
    (hkind : kind ≠ .eof) : (Parse.expect kind).Moves ts := by
  intro rest hrest
  unfold Parse.expect at hrest
  dsimp only at hrest
  rw [if_pos h] at hrest
  cases hrest
  exact ⟨[ts.peek], by simp, hts.uses_peek (h ▸ hkind)⟩

theorem moves_routine (hts : ts.Ended) (h : ts.peek.kind = .keyword .funcao) :
    (routine fuel false).Moves ts := by
  cases fuel with
  | zero => exact moves_exhausted
  | succ fuel =>
    rw [routine]
    refine (moves_expect hts h (by decide)).bind fun start => ?_
    exact (Forward.congruent.pure _).bind fun _ => (Forward.expect _).bind fun _ =>
      (Forward.congruent.parameters le_rfl).bind fun _ => (Forward.expect _).bind fun _ =>
      (forward fuel).body.bind fun _ => (Forward.expect _).bind fun _ => Forward.congruent.pure _

/-- A leaf, a literal or a parenthesis uses the token that starts it. -/
theorem moves_primary (hts : ts.Ended) (h : ts.peek.kind.startsExpression = true)
    (hnegation : ¬(ts.peek.kind = .keyword .negar ∨ ts.peek.kind = .symbol .minus)) :
    (primary fuel).Moves ts := by
  have hend : ts.peek.kind ≠ .eof := by
    intro hend
    rw [hend] at h
    cases h
  cases fuel with
  | zero => exact moves_exhausted
  | succ fuel =>
    rw [primary]
    refine .peek ?_
    cases atom : atom? ts.peek with
    | some a => exact moves_advance_bind hts hend fun _ => Forward.congruent.pure _
    | none =>
      dsimp only
      split
      · exact moves_advance_bind hts hend fun _ => (forward fuel).expression.bind fun _ =>
          (Forward.expect _).bind fun _ => Forward.congruent.pure _
      · exact moves_advance_bind hts hend fun _ => ((forward fuel).sequence _).bind fun _ =>
          (Forward.expect _).bind fun _ => Forward.congruent.pure _
      · exact moves_advance_bind hts hend fun _ => (forward fuel).entries.bind fun _ =>
          (Forward.expect _).bind fun _ => Forward.congruent.pure _
      · next hword => exact (moves_routine hts hword).bind fun _ => Forward.congruent.pure _
      · -- Every other token that starts an expression is a leaf or a negation.
        unfold Kind.startsExpression at h
        unfold atom? at atom
        split at h <;> simp_all

theorem moves_factor (hts : ts.Ended) (h : ts.peek.kind.startsExpression = true) :
    (factor fuel).Moves ts := by
  cases fuel with
  | zero => exact moves_exhausted
  | succ fuel =>
    rw [factor]
    refine .peek ?_
    split_ifs with hnegation
    · have hend : ts.peek.kind ≠ .eof := by
        rcases hnegation with hk | hk <;> simp [hk]
      exact moves_advance_bind hts hend fun _ => (forward fuel).factor.bind fun _ =>
        Forward.congruent.pure _
    · exact (moves_primary hts h hnegation).bind fun head => (forward fuel).suffixes head

theorem moves_operation {tier : Tier} (h : ∀ fuel, (operand fuel tier).Moves ts) :
    (operation fuel tier).Moves ts := by
  cases fuel with
  | zero => exact moves_exhausted
  | succ fuel => exact (h fuel).bind fun left => (forward fuel).chain tier left

/-- An expression uses the token that starts it, whether it succeeds or fails. -/
theorem moves_expression (hts : ts.Ended) (h : ts.peek.kind.startsExpression = true) :
    (expression fuel).Moves ts := by
  have multiplicative : ∀ fuel, (operand fuel .multiplicative).Moves ts
    | 0 => moves_exhausted
    | _ + 1 => moves_factor hts h
  have additive : ∀ fuel, (operand fuel .additive).Moves ts
    | 0 => moves_exhausted
    | _ + 1 => moves_operation multiplicative
  have comparison : ∀ fuel, (operand fuel .comparison).Moves ts
    | 0 => moves_exhausted
    | _ + 1 => moves_operation additive
  have logical : ∀ fuel, (operand fuel .logical).Moves ts
    | 0 => moves_exhausted
    | _ + 1 => moves_operation comparison
  cases fuel with
  | zero => exact moves_exhausted
  | succ fuel => exact moves_operation logical

/-! ### tokens that do not -/

theorem bind_ok {a : α} {rest : Tokens} (h : p ts = .ok a rest) : (p >>= f) ts = f a rest := by
  change Parse.bind p f ts = _
  unfold Parse.bind
  rw [h]

theorem bind_fail {e : SyntaxError} {rest : Tokens} (h : p ts = .fail e rest) :
    (p >>= f) ts = .fail e rest := by
  change Parse.bind p f ts = _
  unfold Parse.bind
  rw [h]

theorem operation_fail {tier : Tier} {e : SyntaxError} {rest : Tokens}
    (h : operand fuel tier ts = .fail e rest) : operation (fuel + 1) tier ts = .fail e rest :=
  bind_fail h

theorem peek_bind {f : Token → Parse β} : (Parse.peek >>= f) ts = f ts.peek ts := rfl

/-- Where no expression starts, the parser fails at once, with an error about the token there. -/
theorem expression_unstarted (h : ts.peek.kind.startsExpression = false) :
    expression (fuel + 11) ts = nonExpression ts.peek ts := by
  have atom : atom? ts.peek = none := by
    unfold atom?
    split <;> simp_all [Kind.startsExpression]
  have primary : primary (fuel + 1) ts = nonExpression ts.peek ts := by
    rw [Parse.primary, peek_bind, atom]
    refine congrFun ?_ ts
    dsimp only
    split
    · next hkind => simp [hkind, Kind.startsExpression] at h
    · next hkind => simp [hkind, Kind.startsExpression] at h
    · next hkind => simp [hkind, Kind.startsExpression] at h
    · next hkind => simp [hkind, Kind.startsExpression] at h
    · rfl
  have negation : ¬(ts.peek.kind = .keyword .negar ∨ ts.peek.kind = .symbol .minus) := by
    rintro (hk | hk) <;> simp [hk, Kind.startsExpression] at h
  have factor : factor (fuel + 2) ts = nonExpression ts.peek ts := by
    rw [Parse.factor, peek_bind, if_neg negation]
    exact bind_fail primary
  exact operation_fail (operation_fail (operation_fail (operation_fail factor)))

end Parse

namespace Tokens

variable {ts : Tokens} {fuel : Nat}

/-- A token that is used makes for fuel. -/
theorem Ended.fuel_advance (hts : ts.Ended) (h : ts.peek.kind ≠ .eof) :
    ts.advance.fuel + 16 = ts.fuel := by
  have := (hts.uses_peek h).length
  simp only [fuel, List.length_singleton] at *
  omega

theorem fuel_pos (ts : Tokens) : 32 ≤ ts.fuel := by
  unfold fuel
  omega

theorem expression_of_unstarted (h : ts.peek.kind.startsExpression = false) :
    ts.expression = Parse.nonExpression ts.peek ts := by
  obtain ⟨fuel, hfuel⟩ := Nat.exists_eq_add_of_le' (Nat.le_trans (by decide : 11 ≤ 32) ts.fuel_pos)
  rw [expression, hfuel]
  exact Parse.expression_unstarted h

/-- An error that arises where an expression began is about a token that cannot start one. -/
theorem Ended.expression_fails_here_iff (hts : ts.Ended) :
    (∃ e, ts.expression = .fail e ts) ↔ ts.peek.kind.startsExpression = false := by
  constructor
  · rintro ⟨e, hfail⟩
    by_contra hstarts
    obtain ⟨used, hne, hused⟩ :=
      Parse.moves_expression hts (Bool.eq_true_of_not_eq_false hstarts) ts (by
        change ts.expression.rest? = _
        rw [hfail]
        rfl)
    exact hne (List.self_eq_append_left.1 hused.ahead)
  · exact fun h => ⟨_, expression_of_unstarted h⟩

/-- What an expression leaves. -/
theorem expression_uses {rest : Tokens} (h : ts.expression.rest? = some rest) :
    ∃ used, ts.Uses used rest :=
  (Parse.forward ts.fuel).expression ts rest h

/-! ### values -/

/-- From `ts` on there are the expressions `es` with commas between them. What is left begins with
no comma. -/
inductive HasValues : Tokens → List Expression → Tokens → Prop
  | last {ts rest : Tokens} {e : Expression} :
      ts.expression = .ok e rest → rest.peek.kind ≠ .symbol .comma → HasValues ts [e] rest
  | more {ts mid rest : Tokens} {e : Expression} {es : List Expression} :
      ts.expression = .ok e mid → mid.peek.kind = .symbol .comma →
      HasValues mid.advance es rest → HasValues ts (e :: es) rest

/-- From `ts` on there are expressions with commas between them, up to one that is malformed, which
has the error `e`. -/
inductive HasMalformed : Tokens → SyntaxError → Tokens → Prop
  | here {ts rest : Tokens} {e : SyntaxError} :
      ts.expression = .fail e rest → HasMalformed ts e rest
  | later {ts mid rest : Tokens} {x : Expression} {e : SyntaxError} :
      ts.expression = .ok x mid → mid.peek.kind = .symbol .comma →
      HasMalformed mid.advance e rest → HasMalformed ts e rest

theorem HasValues.ne_nil {es : List Expression} {rest : Tokens} (h : ts.HasValues es rest) :
    es ≠ [] := by
  cases h <;> exact nofun

end Tokens

namespace Parse

open Tokens

variable {α : Type} {p : Parse α} {ts : Tokens} {fuel : Nat}

/-- What comes after a value: further ones, or the error of one of them. -/
theorem moreValues_after {e : Expression} {mid : Tokens} (hts : ts.Ended)
    (hfirst : ts.expression = .ok e mid) (hfuel : mid.fuel ≤ fuel) :
    (∃ es rest, moreValues fuel mid = .ok es rest ∧ ts.HasValues (e :: es) rest) ∨
      ∃ e rest, moreValues fuel mid = .fail e rest ∧ ts.HasMalformed e rest := by
  induction fuel generalizing ts e mid with
  | zero =>
    have := mid.fuel_pos
    omega
  | succ fuel ih =>
    have hleft : ts.expression.rest? = some mid := by
      rw [hfirst]
      rfl
    obtain ⟨used, hused⟩ := expression_uses hleft
    have hmid := hused.ended hts
    by_cases hcomma : mid.peek.kind = .symbol .comma
    · have accepted : accept (.symbol .comma) mid = .ok true mid.advance := if_pos hcomma
      have hafter := (hmid.uses_peek (by simp [hcomma])).ended hmid
      have hmore : mid.advance.fuel ≤ fuel := by
        have := hmid.fuel_advance (by simp [hcomma])
        omega
      have enough := hafter.expression_eq hmore
      rw [moreValues, bind_ok accepted, if_pos rfl]
      cases hvalue : mid.advance.expression with
      | ok x next =>
        rw [bind_ok (enough.trans hvalue)]
        have hleft' : mid.advance.expression.rest? = some next := by
          rw [hvalue]
          rfl
        obtain ⟨more, hnext⟩ := expression_uses hleft'
        rcases ih hafter hvalue (hnext.fuel_le.trans hmore) with
          ⟨es, rest, hok, hvalues⟩ | ⟨e', rest, hfail, hmalformed⟩
        · exact .inl ⟨x :: es, rest, bind_ok hok, .more hfirst hcomma hvalues⟩
        · exact .inr ⟨e', rest, bind_fail hfail, .later hfirst hcomma hmalformed⟩
      | fail e' rest =>
        exact .inr ⟨e', rest, bind_fail (enough.trans hvalue), .later hfirst hcomma (.here hvalue)⟩
      | exhausted => exact absurd hvalue hafter.expression_ne_exhausted
    · have missing : accept (.symbol .comma) mid = .ok false mid := if_neg hcomma
      rw [moreValues, bind_ok missing, if_neg Bool.false_ne_true]
      exact .inl ⟨[], mid, rfl, .last hfirst hcomma⟩

theorem optional_ok {a : α} {rest : Tokens} (h : p ts = .ok a rest) :
    optional p ts = .ok (some a) rest := by
  rw [optional, h]

/-- An error where the parser began is taken back. -/
theorem optional_here {e : SyntaxError} (h : p ts = .fail e ts) : optional p ts = .ok none ts := by
  rw [optional, h]
  exact if_pos rfl

/-- An error behind a token is kept. -/
theorem optional_behind {e : SyntaxError} {rest : Tokens} (h : p ts = .fail e rest)
    (hrest : ts.Advances rest) : optional p ts = .fail e rest := by
  obtain ⟨used, hne, hused⟩ := hrest
  have moved : rest.ahead.length ≠ ts.ahead.length := by
    have := hused.length
    have := List.length_pos_iff.2 hne
    omega
  rw [optional, h]
  exact if_neg moved

/-- No value, where no expression starts. -/
theorem returnValues_unstarted (hts : ts.Ended) (hfuel : ts.fuel ≤ fuel) (start : Token)
    (h : ts.peek.kind.startsExpression = false) :
    returnValues (fuel + 1) start ts = .ok (.returnValues [] start.span) ts := by
  obtain ⟨e, hfail⟩ := hts.expression_fails_here_iff.2 h
  rw [returnValues, bind_ok (optional_here ((hts.expression_eq hfuel).trans hfail))]
  rfl

/-- Where an expression starts, all values or the error of one of them. -/
theorem returnValues_started (hts : ts.Ended) (hfuel : ts.fuel ≤ fuel) (start : Token)
    (h : ts.peek.kind.startsExpression = true) :
    (∃ es rest, returnValues (fuel + 1) start ts =
      .ok (.returnValues es (es.foldl (fun s e => s.merge e.span) start.span)) rest ∧
        ts.HasValues es rest) ∨
      ∃ e rest, returnValues (fuel + 1) start ts = .fail e rest ∧ ts.HasMalformed e rest ∧
        ts.Advances rest := by
  have enough := hts.expression_eq hfuel
  have moves (rest : Tokens) (hrest : ts.expression.rest? = some rest) : ts.Advances rest :=
    moves_expression hts h rest hrest
  rw [returnValues]
  cases hfirst : ts.expression with
  | ok first mid =>
    obtain ⟨used, hne, hused⟩ := moves mid (by rw [hfirst]; rfl)
    rw [bind_ok (optional_ok (enough.trans hfirst))]
    rcases moreValues_after hts hfirst (hused.fuel_le.trans hfuel) with
      ⟨es, rest, hok, hvalues⟩ | ⟨e, rest, hfail, hmalformed⟩
    · exact .inl ⟨first :: es, rest, bind_ok hok, hvalues⟩
    · obtain ⟨more, hmore⟩ := (forward fuel).moreValues mid rest (by rw [hfail]; rfl)
      exact .inr ⟨e, rest, bind_fail hfail, hmalformed,
        ⟨used ++ more, by simp [hne], hused.trans hmore⟩⟩
  | fail e rest =>
    have behind := moves rest (by rw [hfirst]; rfl)
    exact .inr ⟨e, rest, bind_fail (optional_behind (enough.trans hfirst) behind), .here hfirst,
      behind⟩
  | exhausted => exact absurd hfirst hts.expression_ne_exhausted

/-- The statement that begins with the word of a return. -/
theorem statement_return (h : ts.peek.kind = .keyword .retorna) :
    statement (fuel + 1) ts = returnValues fuel ts.peek ts.advance := by
  rw [statement, peek_bind, h]
  rfl

/-- **A return hides no error.** An expression fails where it began exactly if the token there
cannot start one. So a return has no values, and ends right behind its word, exactly if the next
token cannot start an expression. Every other return has all the expressions there with commas
between them, or it fails with the error of the one that is malformed, behind the tokens that were
used. -/
theorem return_hides_nothing (hts : ts.Ended) (hfuel : ts.fuel ≤ fuel) :
    ((∃ e, expression fuel ts = .fail e ts) ↔ ts.peek.kind.startsExpression = false) ∧
      (ts.peek.kind = .keyword .retorna →
        ((∃ span rest, statement fuel ts = .ok (.returnValues [] span) rest) ↔
          ts.advance.peek.kind.startsExpression = false) ∧
        (ts.advance.peek.kind.startsExpression = false →
          statement fuel ts = .ok (.returnValues [] ts.peek.span) ts.advance) ∧
        (ts.advance.peek.kind.startsExpression = true →
          (∃ es rest, statement fuel ts =
            .ok (.returnValues es (es.foldl (fun s e => s.merge e.span) ts.peek.span)) rest ∧
              ts.advance.HasValues es rest) ∨
          ∃ e rest, statement fuel ts = .fail e rest ∧ ts.advance.HasMalformed e rest ∧
            ts.advance.Advances rest)) := by
  refine ⟨?_, fun hword => ?_⟩
  · rw [hts.expression_eq hfuel]
    exact hts.expression_fails_here_iff
  have hend : ts.peek.kind ≠ .eof := by simp [hword]
  have hafter := (hts.uses_peek hend).ended hts
  have hless := hts.fuel_advance hend
  obtain ⟨fuel, rfl⟩ : ∃ n, fuel = n + 2 := ⟨fuel - 2, by omega⟩
  have hmore : ts.advance.fuel ≤ fuel := by omega
  rw [statement_return hword]
  have nothing := returnValues_unstarted hafter hmore ts.peek
  have something := returnValues_started hafter hmore ts.peek
  refine ⟨⟨?_, fun h => ⟨_, _, nothing h⟩⟩, nothing, fun h => ?_⟩
  · rintro ⟨span, rest, hnone⟩
    by_contra hstarts
    rcases something (Bool.eq_true_of_not_eq_false hstarts) with
      ⟨es, rest', hok, hvalues⟩ | ⟨e, rest', hfail, -, -⟩
    · rw [hok] at hnone
      cases hnone
      exact hvalues.ne_nil rfl
    · rw [hfail] at hnone
      cases hnone
  · exact something h

/-- A sign without an operand is no return without values. -/
theorem return_hides_nothing_of_sign :
    let ts : Tokens := ⟨[⟨.keyword .retorna, "retorna", ⟨0, 7⟩, 1⟩,
      ⟨.symbol .minus, "-", ⟨8, 1⟩, 1⟩, ⟨.keyword .fim, "fim", ⟨10, 3⟩, 1⟩],
      ⟨.eof, "", ⟨13, 0⟩, 1⟩⟩
    ts.Ended ∧ ts.peek.kind = .keyword .retorna ∧
      (∃ e rest, statement ts.fuel ts = .fail e rest ∧ ts.advance.HasMalformed e rest) ∧
      ¬∃ span rest, statement ts.fuel ts = .ok (.returnValues [] span) rest := by
  intro ts
  have hts : ts.Ended := ⟨rfl, by decide⟩
  obtain ⟨hnone, -, hsome⟩ := (return_hides_nothing hts le_rfl).2 rfl
  have hno : ¬∃ span rest, statement ts.fuel ts = .ok (.returnValues [] span) rest :=
    fun h => by cases hnone.1 h
  rcases hsome rfl with ⟨es, rest, hok, -⟩ | ⟨e, rest, hfail, hmalformed, -⟩
  · have failed : ∃ e rest, statement ts.fuel ts = .fail e rest := ⟨_, _, rfl⟩
    obtain ⟨e, rest', hfail⟩ := failed
    rw [hfail] at hok
    cases hok
  · exact ⟨hts, rfl, ⟨e, rest, hfail, hmalformed⟩, hno⟩

end Parse

end Roteiro
