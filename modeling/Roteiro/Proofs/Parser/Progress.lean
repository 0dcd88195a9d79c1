import Roteiro.Decimal.Read
import Roteiro.Proofs.Parser.Soundness
import Roteiro.Proofs.Token.Longest

/-!
Every call of a parser ends, with a result or an error. The tokens of a call end with the end of the
source, so wherever the parser stands there are tokens to look at; each statement, and each round of
a loop, uses a token; and literals are written as their kinds promise. This holds for every parser
that is reached from the start of a source, call after call (`Parser.every_call_ends`).
-/

namespace Roteiro

open Decimal

/-! ### literals -/

namespace Decimal

theorem IsPlain.head_digit {text : List Char} (h : IsPlain text) :
    ∃ c cs, text = c :: cs ∧ c.isDigit = true := by
  cases h with
  | whole h =>
    obtain ⟨c, cs, rfl⟩ := List.exists_cons_of_ne_nil h.ne_nil
    exact ⟨c, cs, rfl, h.digits c (List.mem_cons_self ..)⟩
  | @fraction ds fs h _ =>
    obtain ⟨c, cs, rfl⟩ := List.exists_cons_of_ne_nil h.ne_nil
    exact ⟨c, cs ++ '.' :: fs, rfl, h.digits c (List.mem_cons_self ..)⟩

/-- Plain digits have no power of ten after them. -/
theorem IsPlain.splitPoint {text : List Char} (h : IsPlain text) :
    ∃ whole fraction, splitPoint text = (whole, fraction, []) ∧ whole ≠ [] := by
  cases h with
  | whole h =>
    refine ⟨text, [], ?_, h.ne_nil⟩
    unfold Decimal.splitPoint
    simp only [List.takeWhile_eq_self_iff.mpr h.digits, List.dropWhile_eq_nil_iff.mpr h.digits]
  | @fraction ds fs h h' =>
    have hpoint : '.'.isDigit = false := rfl
    refine ⟨ds, fs, ?_, h.ne_nil⟩
    unfold Decimal.splitPoint
    simp [List.takeWhile_append_of_pos h.digits, List.dropWhile_append_of_pos h.digits, hpoint,
      List.takeWhile_eq_self_iff.mpr h'.digits, List.dropWhile_eq_nil_iff.mpr h'.digits]

/-- Digits, with or without a fraction, are a decimal. -/
theorem IsPlain.isSome_read? {text : List Char} (h : IsPlain text) :
    (read? text).isSome = true := by
  obtain ⟨c, cs, htext, hc⟩ := h.head_digit
  obtain ⟨whole, fraction, hsplit, hwhole⟩ := h.splitPoint
  have hsign : splitSign text = (false, text) := by
    subst htext
    unfold splitSign
    split
    · rename_i heq
      obtain ⟨rfl, -⟩ := List.cons.inj heq
      exact absurd hc (by decide)
    · rename_i heq
      obtain ⟨rfl, -⟩ := List.cons.inj heq
      exact absurd hc (by decide)
    · rfl
  have hword : ∀ word : String, word.toList.head? ≠ some c →
      String.ofList (text.map Char.toLower) ≠ word := by
    have hlower : c.toLower = c := of_isDigit (fun d => d.toLower = d) hc (by decide)
    rintro word hhead rfl
    simp [htext, hlower] at hhead
  have hletter : ∀ d : Char, d.isDigit = false → some d ≠ some c := by
    intro d hd heq
    rw [← Option.some.inj heq, hd] at hc
    cases hc
  have hunsigned : (unsigned? false text).isSome = true := by
    simp [unsigned?, hsplit, hwhole, exponentPart?]
  unfold read?
  simp only [hsign]
  rw [if_neg, if_neg, hunsigned]
  · exact hword "nan" (hletter 'n' rfl)
  · rintro (h | h)
    · exact hword "inf" (hletter 'i' rfl) h
    · exact hword "infinity" (hletter 'i' rfl) h

end Decimal

/-- A literal is written as its kind promises. -/
theorem Kind.literal_of_ofText? {text : List Char} {kind : Kind}
    (h : Kind.ofText? text = some kind) :
    (kind = .number → IsPlain text) ∧ (kind = .string → IsQuoted text) := by
  unfold Kind.ofText? at h
  split_ifs at h with hrun hplain hquoted
  · have hword : kind ≠ .number ∧ kind ≠ .string := by
      rw [← Option.some.inj h, Kind.ofRun]
      split <;> simp
    exact ⟨fun hkind => absurd hkind hword.1, fun hkind => absurd hkind hword.2⟩
  · cases h
    exact ⟨fun _ => hplain, by simp⟩
  · cases h
    exact ⟨by simp, fun _ => hquoted⟩
  · obtain ⟨s, -, rfl⟩ := Option.map_eq_some_iff.mp h
    simp

/-! ### places in a buffer of tokens -/

namespace Tokens

/-- The tokens ahead and the end after them. -/
def buffer (ts : Tokens) : List Token :=
  ts.ahead ++ [ts.finish]

/-- Between `ts` and `rest` at least one token was used. -/
def Advances (ts rest : Tokens) : Prop :=
  ∃ used, used ≠ [] ∧ ts.Uses used rest

variable {ts rest : Tokens} {used : List Token}

/-- Tokens that a parser reads without looking past them. -/
structure Readable (ts : Tokens) : Prop where
  ended : ts.Ended
  /-- Wherever the parser stands, the current token and the one after it are in the buffer. -/
  peeks : ∀ used rest, ts.Uses used rest →
    ts.buffer[min used.length (ts.buffer.length - 1)]? = some rest.peek ∧
      ts.buffer[min (used.length + 1) (ts.buffer.length - 1)]? = some rest.peekSecond
  /-- Advancing leads to the next token, and stays where it is at the end. -/
  moves : ∀ used rest, ts.Uses used rest →
    if rest.peek.kind = .eof then rest.advance = rest
    else ts.Uses (used ++ [rest.peek]) rest.advance
  numbers : ∀ t ∈ ts.ahead, t.kind = .number →
    IsPlain t.lexeme.toList ∧ (read? t.lexeme.toList).isSome = true
  strings : ∀ t ∈ ts.ahead, t.kind = .string → IsQuoted t.lexeme.toList

theorem Uses.peeks (h : ts.Uses used rest) :
    ts.buffer[min used.length (ts.buffer.length - 1)]? = some rest.peek ∧
      ts.buffer[min (used.length + 1) (ts.buffer.length - 1)]? = some rest.peekSecond := by
  have hbuffer : ts.buffer = used ++ (rest.ahead ++ [rest.finish]) := by
    rw [buffer, h.ahead, h.finish, List.append_assoc]
  rw [hbuffer]
  obtain ⟨ahead, finish⟩ := rest
  rcases ahead with _ | ⟨t, _ | ⟨u, ahead⟩⟩
  · simp [peek, peekSecond]
  · simp [peek, peekSecond]
  · simp [peek, peekSecond]

theorem Ended.moves (hts : ts.Ended) (h : ts.Uses used rest) :
    if rest.peek.kind = .eof then rest.advance = rest
    else ts.Uses (used ++ [rest.peek]) rest.advance := by
  have hrest := h.ended hts
  split_ifs with hend
  · rw [advance, hrest.eq_nil hend, List.drop_nil, ← hrest.eq_nil hend]
  · exact h.trans (hrest.uses_peek hend)

/-- Tokens as they are read, up to the end, are readable. -/
theorem Ended.readable (hts : ts.Ended)
    (htexts : ∀ t ∈ ts.ahead, Kind.ofText? t.lexeme.toList = some t.kind) : ts.Readable where
  ended := hts
  peeks _ _ h := h.peeks
  moves _ _ h := hts.moves h
  numbers t ht hkind := by
    have hplain := (Kind.literal_of_ofText? (htexts t ht)).1 hkind
    exact ⟨hplain, hplain.isSome_read?⟩
  strings t ht := (Kind.literal_of_ofText? (htexts t ht)).2

end Tokens

/-! ### loops -/

namespace Parse

variable {α β : Type}

instance : LawfulMonad Parse := LawfulMonad.mk' (m := Parse)
  (fun p => by
    funext ts
    show Parse.bind p _ ts = p ts
    unfold Parse.bind
    cases p ts <;> rfl)
  (fun a f => rfl)
  (fun p f g => by
    funext ts
    show Parse.bind (Parse.bind p f) g ts = Parse.bind p _ ts
    unfold Parse.bind
    cases p ts <;> rfl)

/-- A loop: a round, and if it yields something, further ones. -/
def loop (round : Parse (Option α)) (last : β) (again : α → Parse β) : Parse β := do
  match ← round with
  | none => pure last
  | some a => again a

/-- A first item and those after it. -/
def cons (a : α) (p : Parse (List α)) : Parse (List α) := do
  let rest ← p
  pure (a :: rest)

/-- A round of a body or a script: a statement, unless the closing token comes. -/
def statementRound (close : Kind) (fuel : Nat) : Parse (Option Statement) := do
  if (← peek).kind = close then pure none
  else
    let s ← statement fuel
    pure (some s)

/-- A round of a sequence: an expression, and a comma if there is one. -/
def itemRound (close : Kind) (fuel : Nat) : Parse (Option Expression) := do
  let kind := (← peek).kind
  if kind = close ∨ kind = .eof then pure none
  else
    let item ← expression fuel
    let _ ← accept (.symbol .comma)
    pure (some item)

/-- A round of a dictionary. -/
def entryRound (fuel : Nat) : Parse (Option Entry) := do
  if (← peek).kind = .symbol .rightBrace then pure none
  else
    let key ← key fuel
    let _ ← expect (.symbol .equal)
    let value ← expression fuel
    let _ ← accept (.symbol .comma)
    pure (some (.mk key value))

/-- A round of a parameter list. -/
def parameterRound : Parse (Option Ident) := do
  if (← peek).kind = .identifier then
    let name ← ident
    let _ ← accept (.symbol .comma)
    pure (some name)
  else pure none

/-- A round of a chain: an operator of the tier, and the operand after it. -/
def operatorRound (tier : Tier) (left : Expression) (fuel : Nat) : Parse (Option Expression) := do
  match operator? tier (← peek).kind with
  | none => pure none
  | some op =>
    let _ ← advance
    let right ← operand fuel tier
    pure (some (.binary op left right (left.span.merge right.span)))

/-- A round of postfixes: one call or property. -/
def suffixRound (head : Expression) (fuel : Nat) : Parse (Option Expression) := do
  match (← peek).kind with
  | .symbol .leftParen =>
    let _ ← advance
    let arguments ← sequence fuel (.symbol .rightParen)
    let close ← expect (.symbol .rightParen)
    pure (some (.call head arguments (head.span.merge close.span)))
  | .symbol .dot =>
    let _ ← advance
    let name ← ident
    pure (some
      (.property head (.atom (.string name.text) name.span) (head.span.merge name.span)))
  | .symbol .leftBracket =>
    let _ ← advance
    let key ← expression fuel
    let close ← expect (.symbol .rightBracket)
    pure (some (.property head key (head.span.merge close.span)))
  | _ => pure none

/-! ### the loops of the grammar -/

theorem statements_eq_loop (fuel : Nat) : statements (fuel + 1) =
    loop (statementRound .eof fuel) [] fun s => cons s (statements fuel) := by
  simp only [statements, loop, statementRound, cons, bind_assoc]
  congr! 2 with t
  split_ifs <;> simp

theorem body_eq_loop (fuel : Nat) : body (fuel + 1) =
    loop (statementRound (.keyword .fim) fuel) [] fun s => cons s (body fuel) := by
  simp only [body, loop, statementRound, cons, bind_assoc]
  congr! 2 with t
  split_ifs <;> simp

theorem sequence_eq_loop (close : Kind) (fuel : Nat) : sequence (fuel + 1) close =
    loop (itemRound close fuel) [] fun e => cons e (sequence fuel close) := by
  simp only [sequence, loop, itemRound, cons, bind_assoc]
  congr! 2 with t
  split_ifs <;> simp

theorem entries_eq_loop (fuel : Nat) : entries (fuel + 1) =
    loop (entryRound fuel) [] fun e => cons e (entries fuel) := by
  simp only [entries, loop, entryRound, cons, bind_assoc]
  congr! 2 with t
  split_ifs <;> simp

theorem parameters_eq_loop (fuel : Nat) : parameters (fuel + 1) =
    loop parameterRound [] fun x => cons x (parameters fuel) := by
  simp only [parameters, loop, parameterRound, cons, bind_assoc]
  congr! 2 with t
  split_ifs <;> simp

theorem chain_eq_loop (tier : Tier) (left : Expression) (fuel : Nat) :
    chain (fuel + 1) tier left = loop (operatorRound tier left fuel) left (chain fuel tier) := by
  simp only [chain, loop, operatorRound, bind_assoc]
  congr! 2 with t
  cases operator? tier t.kind <;> simp

theorem suffixes_eq_loop (head : Expression) (fuel : Nat) :
    suffixes (fuel + 1) head = loop (suffixRound head fuel) head (suffixes fuel) := by
  simp only [suffixes, loop, suffixRound, bind_assoc]
  congr! 2 with t
  generalize t.kind = kind
  split
  · simp
  · simp
  · simp
  · simp_all

/-! ### progress -/

/-- A parser that repeats a round, and whose every round that yields something uses a token. -/
structure LoopsBy (p : Parse β) (round : Parse (Option α)) (last : β) (again : α → Parse β) :
    Prop where
  eq_loop : p = loop round last again
  advances : ∀ ts, ts.Ended → ∀ a rest, round ts = .ok (some a) rest → ts.Advances rest

/-- A statement uses a token, and so does each round of a loop. -/
structure Progress (fuel : Nat) : Prop where
  statement : ∀ ts, ts.Ended → ∀ s rest, statement fuel ts = .ok s rest → ts.Advances rest
  statements : LoopsBy (statements (fuel + 1)) (statementRound .eof fuel) []
    fun s => cons s (statements fuel)
  body : LoopsBy (body (fuel + 1)) (statementRound (.keyword .fim) fuel) []
    fun s => cons s (body fuel)
  sequence : ∀ close, LoopsBy (sequence (fuel + 1) close) (itemRound close fuel) []
    fun e => cons e (sequence fuel close)
  entries : LoopsBy (entries (fuel + 1)) (entryRound fuel) [] fun e => cons e (entries fuel)
  parameters : LoopsBy (parameters (fuel + 1)) parameterRound [] fun x => cons x (parameters fuel)
  chain : ∀ tier left, LoopsBy (chain (fuel + 1) tier left) (operatorRound tier left fuel) left
    (chain fuel tier)
  suffixes : ∀ head, LoopsBy (suffixes (fuel + 1) head) (suffixRound head fuel) head
    (suffixes fuel)

section

open Tokens

variable {fuel : Nat}

/-- Any result of a round but the last one is behind a token. -/
theorem LoopsBy.of_answers {p : Parse β} {round : Parse (Option α)} {last : β} {again : α → Parse β}
    (heq : p = loop round last again)
    (h : ∀ ts, ts.Ended →
      round.Answers ts (fun a rest => a ≠ none → ts.Advances rest) True True) :
    LoopsBy p round last again := by
  refine ⟨heq, fun ts hts a rest hround => ?_⟩
  have := h ts hts
  rw [Answers, hround] at this
  exact this (by simp)

/-- A sound parser behind the tokens used so far. -/
theorem answers_follow {rank : Nat} {p : Parse α} {D : List Token → α → Prop} {f : α → Parse β}
    {ts mid : Tokens} {used : List Token} {Q : β → Tokens → Prop} (hu : ts.Uses used mid)
    (hts : ts.Ended) (hp : Sound fuel rank p D)
    (hf : ∀ a more rest, ts.Uses (used ++ more) rest → D more a →
      (f a).Answers rest Q True True) : (p >>= f).Answers mid Q True True := by
  rw [answers_bind]
  refine (hp mid (hu.ended hts)).mono ?_ fun _ => trivial
  rintro a rest ⟨more, hmore, hD⟩
  exact hf a more rest (hu.trans hmore) hD

theorem statementRound_answers (close : Kind) (ts : Tokens) (hts : ts.Ended) :
    (statementRound close fuel).Answers ts (fun a rest => a ≠ none → ts.Advances rest)
      True True := by
  rw [statementRound, answers_bind, answers_peek]
  split_ifs with hclose
  · simp
  · refine answers_follow (Uses.refl ts) hts (SoundGroup.all fuel).statement
      fun s used rest hu hs _ => ?_
    exact ⟨used, hs.ne_nil, hu⟩

theorem itemRound_answers (close : Kind) (ts : Tokens) (hts : ts.Ended) :
    (itemRound close fuel).Answers ts (fun a rest => a ≠ none → ts.Advances rest) True True := by
  rw [itemRound, answers_bind, answers_peek]
  dsimp only
  split_ifs with hclose
  · simp
  · refine answers_follow (Uses.refl ts) hts (SoundGroup.all fuel).expression
      fun item is mid hu hitem => ?_
    refine hu.comma hts fun _ comma rest hu _ _ => ?_
    exact ⟨_, by simp [hitem.ne_nil], hu⟩

theorem entryRound_answers (ts : Tokens) (hts : ts.Ended) :
    (entryRound fuel).Answers ts (fun a rest => a ≠ none → ts.Advances rest) True True := by
  rw [entryRound, answers_bind, answers_peek]
  split_ifs with hclose
  · simp
  · refine answers_follow (Uses.refl ts) hts (SoundGroup.all fuel).key fun key ks mid hu _ => ?_
    refine hu.expect hts (by simp) fun equal mid hu _ => ?_
    refine answers_follow hu hts (SoundGroup.all fuel).expression fun value vs mid hu _ => ?_
    refine hu.comma hts fun _ comma rest hu _ _ => ?_
    exact ⟨_, by simp, hu⟩

theorem parameterRound_answers (ts : Tokens) (hts : ts.Ended) :
    parameterRound.Answers ts (fun a rest => a ≠ none → ts.Advances rest) True True := by
  rw [parameterRound, answers_bind, answers_peek]
  split_ifs with hname
  · refine (Uses.refl ts).ident hts fun t name mid hu _ => ?_
    refine hu.comma hts fun _ comma rest hu _ _ => ?_
    exact ⟨_, by simp, hu⟩
  · simp

theorem operatorRound_answers (tier : Tier) (left : Expression) (ts : Tokens) (hts : ts.Ended) :
    (operatorRound tier left fuel).Answers ts (fun a rest => a ≠ none → ts.Advances rest)
      True True := by
  rw [operatorRound, answers_bind, answers_peek]
  split
  · simp
  · rename_i op hop
    have hkind : ts.peek.kind ≠ .eof := by
      rw [(operator?_eq_some hop).2]
      cases op <;> simp [Operator.kind]
    refine (Uses.refl ts).advance hts hkind fun mid hu => ?_
    refine answers_follow hu hts ((SoundGroup.all fuel).operand tier) fun right rs rest hu _ _ => ?_
    exact ⟨_, by simp, hu⟩

theorem suffixRound_answers (head : Expression) (ts : Tokens) (hts : ts.Ended) :
    (suffixRound head fuel).Answers ts (fun a rest => a ≠ none → ts.Advances rest) True True := by
  rw [suffixRound, answers_bind, answers_peek]
  split
  · rename_i hkind
    refine (Uses.refl ts).advance hts (by simp [hkind]) fun mid hu => ?_
    refine answers_follow hu hts ((SoundGroup.all fuel).sequence _) fun args as mid hu _ => ?_
    refine hu.expect hts (by simp) fun close rest hu _ _ => ?_
    exact ⟨_, by simp, hu⟩
  · rename_i hkind
    refine (Uses.refl ts).advance hts (by simp [hkind]) fun mid hu => ?_
    refine hu.ident hts fun t name rest hu _ _ => ?_
    exact ⟨_, by simp, hu⟩
  · rename_i hkind
    refine (Uses.refl ts).advance hts (by simp [hkind]) fun mid hu => ?_
    refine answers_follow hu hts (SoundGroup.all fuel).expression fun key ks mid hu _ => ?_
    refine hu.expect hts (by simp) fun close rest hu _ _ => ?_
    exact ⟨_, by simp, hu⟩
  · simp

theorem progress (fuel : Nat) : Progress fuel where
  statement ts hts s rest h := by
    have := (SoundGroup.all fuel).statement ts hts
    rw [Answers, h] at this
    obtain ⟨used, hu, hs⟩ := this
    exact ⟨used, hs.ne_nil, hu⟩
  statements := .of_answers (statements_eq_loop fuel) (statementRound_answers .eof)
  body := .of_answers (body_eq_loop fuel) (statementRound_answers _)
  sequence close := .of_answers (sequence_eq_loop close fuel) (itemRound_answers close)
  entries := .of_answers (entries_eq_loop fuel) entryRound_answers
  parameters := .of_answers (parameters_eq_loop fuel) parameterRound_answers
  chain tier left := .of_answers (chain_eq_loop tier left fuel) (operatorRound_answers tier left)
  suffixes head := .of_answers (suffixes_eq_loop head fuel) (suffixRound_answers head)

end

end Parse

/-! ### calls -/

/-- What a parser answers, unless it is out of fuel. -/
def Parsed.result? {α : Type} : Parsed α → Option (Except SyntaxError α)
  | .ok a _ => some (.ok a)
  | .fail e _ => some (.error e)
  | .exhausted => none

namespace Parser

/-- The calls of a parser. -/
inductive Call where
  | program
  | expression

/-- The parser after a call. -/
def step (parser : Parser) : Call → Parser
  | .program => parser.program.2
  | .expression => parser.expression.2

/-- The parser after some calls in a row. -/
def after (parser : Parser) (calls : List Call) : Parser :=
  calls.foldl step parser

/-- Either call of a parser ends: there is a lexical error, or the tokens up to the end are
readable and the grammar gives a result or an error for them, with fuel to spare. -/
inductive Ends (parser : Parser) : Prop
  | lexical (e : LexicalError) : parser.lexer.tokens.1 = .error e →
      parser.program.1 = .error (.ofLexical e) → parser.expression.1 = .error (.ofLexical e) →
      Ends parser
  | parsed (ts : Tokens) (script : Except SyntaxError (List Statement))
      (single : Except SyntaxError Expression) : parser.lexer.tokens.1 = .ok ts.buffer →
      ts.Readable →
      (Parse.statements ts.fuel ts).result? = some script →
      parser.program.1 = script.map (fun statements => ⟨statements, parser.whole⟩) →
      (Parse.expressionOnly ts.fuel ts).result? = some single →
      parser.expression.1 = single → Ends parser

theorem run_of_error {α : Type} {parser : Parser} {e : LexicalError} (p : Nat → Parse α)
    (h : parser.lexer.tokens.1 = .error e) : (parser.run p).1 = .error (.ofLexical e) := by
  rw [run]
  split <;> simp_all

theorem run_of_ok {α : Type} {parser : Parser} {ts : Tokens} (p : Nat → Parse α)
    (h : parser.lexer.tokens.1 = .ok ts.buffer) :
    (parser.run p).1 = outcome ts (p ts.fuel ts) := by
  have hof : Tokens.ofList ts.buffer = ts := by simp [Tokens.ofList, Tokens.buffer]
  rw [run]
  split
  · simp_all
  · rename_i list lexer hlist
    obtain rfl : list = ts.buffer := by simpa [hlist] using h
    rw [hof]

/-- A parser that answers with fuel to spare gives the answer of the call. -/
theorem outcome_of_answers {α : Type} {p : Parse α} {ts : Tokens} {Q : α → Tokens → Prop}
    {out : Prop} (h : p.Answers ts Q True out) (hout : ¬out) :
    ∃ result, (p ts).result? = some result ∧ outcome ts (p ts) = result := by
  rw [Parse.Answers] at h
  cases hp : p ts with
  | ok a rest => exact ⟨.ok a, rfl, rfl⟩
  | fail e rest => exact ⟨.error e, rfl, rfl⟩
  | exhausted =>
    rw [hp] at h
    exact absurd h hout

end Parser

/-- From anywhere in a source, the tokens up to the end are readable, or there is an error. -/
theorem Lexer.tokens_readable (lexer : Lexer) : (∃ e, lexer.tokens.1 = .error e) ∨
    ∃ ts : Tokens, lexer.tokens.1 = .ok ts.buffer ∧ ts.Readable := by
  cases hlist : lexer.tokens.1 with
  | error e => exact .inl ⟨e, rfl⟩
  | ok list =>
    have hmap : (lexer.itemsWithin _).1 = list.map .ok := (tokensWithin_eq_ok_iff ..).mp hlist
    rw [itemsWithin_eq_longestItems _ _ _ (Nat.lt_succ_self _)] at hmap
    obtain ⟨items, finish, hitems, hfinish, htexts⟩ :=
      lexer.cursor.longestItems_eq lexer.lines
    obtain ⟨ahead, last, rfl, rfl, hlast⟩ := List.map_eq_append_iff.mp (hmap.symm.trans hitems)
    obtain rfl : last = [finish] := by simpa [List.map_eq_singleton_iff] using hlast
    have hahead : ∀ t ∈ ahead, Kind.ofText? t.lexeme.toList = some t.kind :=
      fun t ht => htexts t (List.mem_map_of_mem ht)
    have hended : (Tokens.mk ahead finish).Ended :=
      ⟨hfinish, fun t ht => Kind.ne_eof_of_ofText? (hahead t ht)⟩
    exact .inr ⟨⟨ahead, finish⟩, rfl, hended.readable hahead⟩

theorem Parser.ends (parser : Parser) : parser.Ends := by
  rcases parser.lexer.tokens_readable with ⟨e, he⟩ | ⟨ts, hts, hread⟩
  · refine .lexical e he ?_ (run_of_error _ he)
    simp [program, run_of_error _ he, Except.map]
  · have hfuel : ¬ts.fuel ≤ 16 * ts.ahead.length + 14 := by
      rw [Tokens.fuel]
      omega
    obtain ⟨script, hscript, hprogram⟩ :=
      outcome_of_answers (Parse.statements_answers ts.fuel ts hread.ended) hfuel
    obtain ⟨single, hsingle, hexpression⟩ :=
      outcome_of_answers (Parse.expressionOnly_answers ts.fuel ts hread.ended) (by omega)
    refine .parsed ts script single hts hread hscript ?_ hsingle ?_
    · rw [← hprogram, ← run_of_ok _ hts]
      rfl
    · rw [← hexpression, ← run_of_ok _ hts]
      rfl

/-- **Every call of a parser ends** with a result or an error. Whatever calls were made before, the
tokens of the next one are readable up to the end, and the grammar has an answer for them before its
fuel runs out; each statement, and each round of a loop, uses a token. -/
theorem Parser.every_call_ends (source : String) (calls : List Call) :
    ((Parser.ofText source).after calls).Ends ∧ ∀ fuel, Parse.Progress fuel :=
  ⟨Parser.ends _, Parse.progress⟩

end Roteiro
