import Roteiro.Proofs.Parser.Soundness
import Roteiro.Proofs.Tree.Bare
import Roteiro.Proofs.Tree.Writable

/-!
Reading back what was written. The parser, standing at the tokens of a written expression, uses
exactly these and answers with the expression, up to spans (`Expression.reads`). The proof follows
the printer: the parts of an expression stand where they are followed by a token that ends them.
Fuel does not matter here, because that there is enough of it is known from the soundness of the
parser. With the spelling of texts this gives that printing and parsing is the identity
(`Expression.ofText_text`).
-/

namespace Roteiro

/-! ### the tokens ahead -/

namespace Tokens

/-- The tokens from `ts` up to `rest` show `fs`. -/
def Shows (ts : Tokens) (fs : List Face) (rest : Tokens) : Prop :=
  ∃ used, ts.Uses used rest ∧ used.map Token.face = fs

namespace Shows

variable {ts rest : Tokens} {f g : Face} {fs gs : List Face}

theorem eq (h : ts.Shows [] rest) : ts = rest := by
  obtain ⟨used, hu, hfaces⟩ := h
  obtain rfl := List.map_eq_nil_iff.mp hfaces
  obtain ⟨hahead, hfinish⟩ := hu
  cases ts
  cases rest
  simp_all

theorem tail (h : ts.Shows (f :: fs) rest) : ts.advance.Shows fs rest := by
  obtain ⟨used, hu, hfaces⟩ := h
  obtain ⟨t, used, rfl, rfl, rfl⟩ := List.map_eq_cons_iff.mp hfaces
  exact ⟨used, ⟨by simp [advance, hu.ahead], hu.finish⟩, rfl⟩

theorem peek (h : ts.Shows (f :: fs) rest) : ts.peek.face = f := by
  obtain ⟨used, hu, hfaces⟩ := h
  obtain ⟨t, used, rfl, rfl, rfl⟩ := List.map_eq_cons_iff.mp hfaces
  simp [Tokens.peek, hu.ahead]

theorem kind (h : ts.Shows (f :: fs) rest) : ts.peek.kind = f.1 :=
  congrArg Prod.fst h.peek

theorem lexeme (h : ts.Shows (f :: fs) rest) : ts.peek.lexeme = f.2 :=
  congrArg Prod.snd h.peek

theorem second (h : ts.Shows (f :: g :: fs) rest) : ts.peekSecond.kind = g.1 := by
  obtain ⟨used, hu, hfaces⟩ := h
  obtain ⟨t, used, rfl, rfl, hmore⟩ := List.map_eq_cons_iff.mp hfaces
  obtain ⟨u, used, rfl, rfl, rfl⟩ := List.map_eq_cons_iff.mp hmore
  simp [peekSecond, hu.ahead, Token.face]

theorem split (h : ts.Shows (fs ++ gs) rest) : ∃ mid, ts.Shows fs mid ∧ mid.Shows gs rest := by
  obtain ⟨used, hu, hfaces⟩ := h
  obtain ⟨us, vs, rfl, rfl, rfl⟩ := List.map_eq_append_iff.mp hfaces
  refine ⟨⟨vs ++ rest.ahead, ts.finish⟩, ⟨us, ⟨?_, rfl⟩, rfl⟩, ⟨vs, ⟨rfl, hu.finish⟩, rfl⟩⟩
  rw [hu.ahead, List.append_assoc]

end Shows

end Tokens

namespace Parse

open Tokens

variable {α β : Type}

/-- A parser at `ts` succeeds as `Q` says, if only there is fuel. -/
abbrev Reaches (p : Parse α) (ts : Tokens) (Q : α → Tokens → Prop) : Prop :=
  p.Answers ts Q False True

/-- A parser used the tokens up to `rest`. -/
abbrev Until (rest : Tokens) (P : α → Prop) : α → Tokens → Prop :=
  fun a left => left = rest ∧ P a

variable {ts rest : Tokens} {f : Face} {fs : List Face} {Q : β → Tokens → Prop}

theorem Reaches.andThen {p : Parse α} {k : α → Parse β} {P : α → Prop}
    (h : p.Reaches ts (Until rest P)) (hk : ∀ a, P a → (k a).Reaches rest Q) :
    (p >>= k).Reaches ts Q := by
  rw [Reaches, answers_bind]
  refine Answers.mono h ?_ id
  rintro a left ⟨rfl, ha⟩
  exact hk a ha

theorem reaches_advance {k : Token → Parse β} (h : (k ts.peek).Reaches ts.advance Q) :
    (advance >>= k).Reaches ts Q :=
  (answers_bind ..).mpr h

theorem reaches_expect {k : Token → Parse β} {kind : Kind} (hkind : ts.peek.kind = kind)
    (h : ∀ t, (k t).Reaches ts.advance Q) : (expect kind >>= k).Reaches ts Q := by
  rw [Reaches, answers_bind, answers_expect]
  exact ⟨fun _ => h _, fun hne => hne hkind⟩

theorem reaches_ident {k : Ident → Parse β} {s : String} (h : ts.Shows ((.identifier, s) :: fs) rest)
    (hk : ∀ name : Ident, name.text = s → (k name).Reaches ts.advance Q) :
    (ident >>= k).Reaches ts Q := by
  rw [Reaches, answers_bind, answers_ident]
  exact ⟨fun _ => hk _ h.lexeme, fun hne => hne h.kind⟩

theorem reaches_accept {k : Bool → Parse β} {kind : Kind} (hkind : ts.peek.kind = kind)
    (h : (k true).Reaches ts.advance Q) : (accept kind >>= k).Reaches ts Q := by
  rw [Reaches, answers_bind, answers_accept]
  exact ⟨fun _ => h, fun hne => absurd hkind hne⟩

theorem reaches_accept_not {k : Bool → Parse β} {kind : Kind} (hkind : ts.peek.kind ≠ kind)
    (h : (k false).Reaches ts Q) : (accept kind >>= k).Reaches ts Q := by
  rw [Reaches, answers_bind, answers_accept]
  exact ⟨fun heq => absurd heq hkind, fun _ => h⟩

/-! ### tiers -/

/-- A token that is no operator of a tier tighter than the given one, and so does not continue its
operands. -/
def EndsOperand : Tier → Kind → Prop
  | .multiplicative, _ => True
  | .additive, kind => operator? .multiplicative kind = none
  | .comparison, kind => operator? .additive kind = none ∧ operator? .multiplicative kind = none
  | .logical, kind =>
    operator? .comparison kind = none ∧ operator? .additive kind = none ∧
      operator? .multiplicative kind = none

/-- A token that continues an expression by a call or a property. -/
def OpensSuffix (kind : Kind) : Prop :=
  kind = .symbol .leftParen ∨ kind = .symbol .dot ∨ kind = .symbol .leftBracket

/-- A token that does not continue an expression. -/
structure Closes (kind : Kind) : Prop where
  operator : ∀ tier, operator? tier kind = none
  suffix : ¬OpensSuffix kind

theorem closes_of_mem {kind : Kind} (h : kind ∈ [Kind.symbol .comma, .symbol .rightParen,
    .symbol .rightBracket, .symbol .rightBrace, .eof]) : Closes kind := by
  simp only [List.mem_cons, List.not_mem_nil, or_false] at h
  rcases h with rfl | rfl | rfl | rfl | rfl
  all_goals exact ⟨fun tier => by cases tier <;> rfl, by simp [OpensSuffix]⟩

theorem Closes.endsOperand {kind : Kind} (h : Closes kind) (tier : Tier) :
    EndsOperand tier kind := by
  cases tier <;> simp [EndsOperand, h.operator]

theorem operator?_kind (op : Operator) : operator? op.tier op.kind = some op := by
  cases op <;> rfl

theorem Operator.endsOperand (op : Operator) : EndsOperand op.tier op.kind := by
  cases op <;> simp [EndsOperand, Operator.tier, Operator.kind, operator?]

theorem Operator.not_opensSuffix (op : Operator) : ¬OpensSuffix op.kind := by
  cases op <;> simp [OpensSuffix, Operator.kind]

section

variable {P : Expression → Prop} {tier : Tier}

theorem reaches_chain (hend : operator? tier ts.peek.kind = none) {left : Expression}
    {Q : Expression → Tokens → Prop} (hQ : Q left ts) (fuel : Nat) :
    (chain fuel tier left).Reaches ts Q := by
  cases fuel with
  | zero => trivial
  | succ fuel =>
    rw [chain, Reaches, answers_bind, answers_peek, hend]
    exact hQ

theorem reaches_operation (h : ∀ fuel, (operand fuel tier).Reaches ts (Until rest P))
    (hend : operator? tier rest.peek.kind = none) (fuel : Nat) :
    (operation fuel tier).Reaches ts (Until rest P) := by
  cases fuel with
  | zero => trivial
  | succ fuel =>
    rw [operation]
    exact (h fuel).andThen fun e he => reaches_chain hend ⟨rfl, he⟩ fuel

/-- An operand of a tier is an operation of the next one. -/
theorem reaches_operand {next : Tier} (hnext : tier.operand = .tier next)
    (h : ∀ fuel, (operation fuel next).Reaches ts (Until rest P)) (fuel : Nat) :
    (operand fuel tier).Reaches ts (Until rest P) := by
  cases fuel with
  | zero => trivial
  | succ fuel =>
    cases tier <;> cases hnext <;> rw [operand] <;> exact h fuel

/-- What is read inside all tiers is read as an operand of any of them. -/
theorem reaches_operand_of_factor (h : ∀ fuel, (factor fuel).Reaches ts (Until rest P))
    (hend : EndsOperand tier rest.peek.kind) (fuel : Nat) :
    (operand fuel tier).Reaches ts (Until rest P) := by
  have tight : ∀ fuel, (operand fuel .multiplicative).Reaches ts (Until rest P)
    | 0 => trivial
    | fuel + 1 => by rw [operand]; exact h fuel
  cases tier with
  | multiplicative => exact tight fuel
  | additive => exact reaches_operand rfl (reaches_operation tight hend) fuel
  | comparison =>
    exact reaches_operand rfl (reaches_operation
      (reaches_operand rfl (reaches_operation tight hend.2)) hend.1) fuel
  | logical =>
    exact reaches_operand rfl (reaches_operation (reaches_operand rfl (reaches_operation
      (reaches_operand rfl (reaches_operation tight hend.2.2)) hend.2.1)) hend.1) fuel

/-- What is read as an operation of any tier is read as a whole expression. -/
theorem reaches_expression (tier : Tier)
    (h : ∀ fuel, (operation fuel tier).Reaches ts (Until rest P))
    (hend : Closes rest.peek.kind) (fuel : Nat) :
    (expression fuel).Reaches ts (Until rest P) := by
  have whole : ∀ fuel, (operation fuel .logical).Reaches ts (Until rest P) := by
    have up : ∀ (inner : Tier) {outer : Tier}, outer.operand = .tier inner →
        (∀ fuel, (operation fuel inner).Reaches ts (Until rest P)) →
        ∀ fuel, (operation fuel outer).Reaches ts (Until rest P) :=
      fun inner _ hinner hop => reaches_operation (reaches_operand hinner hop) (hend.operator _)
    cases tier with
    | logical => exact h
    | comparison => exact up .comparison rfl h
    | additive => exact up .comparison rfl (up .additive rfl h)
    | multiplicative =>
      exact up .comparison rfl (up .additive rfl (up .multiplicative rfl h))
  cases fuel with
  | zero => trivial
  | succ fuel => rw [expression]; exact whole fuel

/-- Two operands with an operator between them. -/
theorem reaches_binary {op : Operator} {mid : Tokens} {P' : Expression → Prop}
    {Q : Expression → Prop} (hop : mid.peek.kind = op.kind)
    (hleft : ∀ fuel, (operand fuel op.tier).Reaches ts (Until mid P))
    (hright : ∀ fuel, (operand fuel op.tier).Reaches mid.advance (Until rest P'))
    (hend : operator? op.tier rest.peek.kind = none)
    (hQ : ∀ left right span, P left → P' right → Q (.binary op left right span)) (fuel : Nat) :
    (operation fuel op.tier).Reaches ts (Until rest Q) := by
  cases fuel with
  | zero => trivial
  | succ fuel =>
    rw [operation]
    refine (hleft fuel).andThen fun left hl => ?_
    cases fuel with
    | zero => trivial
    | succ fuel =>
      rw [chain, Reaches, answers_bind, answers_peek, hop, operator?_kind]
      refine reaches_advance ((hright fuel).andThen fun right hr => ?_)
      exact reaches_chain hend ⟨rfl, hQ _ _ _ hl hr⟩ fuel

end

/-! ### the first tokens of an expression -/

/-- The kinds of token with which a written expression begins. -/
def firstKinds : List Kind :=
  [.number, .string, .identifier, .keyword .verdadeiro, .keyword .falso, .keyword .nulo,
    .keyword .negar, .symbol .leftParen, .symbol .leftBracket, .symbol .leftBrace]

theorem firstKind_atom (a : Atom) : a.face.1 ∈ firstKinds ∧ a.face.1 ≠ .keyword .negar := by
  cases a with
  | boolean b => cases b <;> simp [Atom.face, firstKinds]
  | _ => simp [Atom.face, firstKinds]

/-- A property is written as its object and something that opens a suffix. -/
theorem property_parts {object key : Expression} {span : Span}
    (h : (Expression.property object key span).Writable) :
    object.Writable ∧ ¬object.IsNegation ∧ ∃ g gs, OpensSuffix g.1 ∧
      (Expression.property object key span).faces = object.faces ++ g :: gs := by
  rcases key.string_or_not with ⟨name, _, rfl⟩ | hkey
  · exact ⟨h.1, h.2.1, _, _, .inr (.inl rfl), rfl⟩
  · simp only [Expression.Writable] at h
    refine ⟨h.1, h.2.1, (.symbol .leftBracket, "["), key.faces ++ [(.symbol .rightBracket, "]")],
      .inr (.inr rfl), ?_⟩
    simp only [Expression.faces]

/-- Only negations begin with the word for them. -/
theorem firstKind_mem : ∀ e : Expression, e.Writable → ∃ f fs, e.faces = f :: fs ∧
    f.1 ∈ firstKinds ∧ (f.1 = .keyword .negar → e.IsNegation)
  | .atom a _, _ => ⟨a.face, [], rfl, (firstKind_atom a).1, fun h => absurd h (firstKind_atom a).2⟩
  | .array items _, _ => ⟨_, _, rfl, by simp [firstKinds], by simp⟩
  | .dictionary entries _, _ => ⟨_, _, rfl, by simp [firstKinds], by simp⟩
  | .negate operand _, _ => ⟨_, _, rfl, by simp [firstKinds], fun _ => trivial⟩
  | .binary op left right _, _ => ⟨_, _, rfl, by simp [firstKinds], by simp⟩
  | .call callee arguments _, h => by
    obtain ⟨f, fs, hfaces, hmem, hneg⟩ := firstKind_mem callee h.1
    exact ⟨f, _, by rw [Expression.faces, hfaces]; rfl, hmem, fun hf => absurd (hneg hf) h.2.1⟩
  | .property object key _, h => by
    obtain ⟨ho, hn, g, gs, -, hproperty⟩ := property_parts h
    obtain ⟨f, fs, hfaces, hmem, hneg⟩ := firstKind_mem object ho
    exact ⟨f, _, by rw [hproperty, hfaces]; rfl, hmem, fun hf => absurd (hneg hf) hn⟩

/-- A name and what follows it, or more than a name and what follows that. -/
theorem secondKind_append {head : Expression} (hhead : head.Writable) {f g : Face}
    {fs gs : List Face} (hg : OpensSuffix g.1) (hfaces : head.faces ++ g :: gs = f :: fs)
    (ih : ¬head.IsName → ∀ fs, head.faces = f :: fs →
      ∃ g gs, fs = g :: gs ∧ g.1 ≠ .symbol .rightBracket) :
    ∃ g gs, fs = g :: gs ∧ g.1 ≠ .symbol .rightBracket := by
  by_cases hname : head.IsName
  · unfold Expression.IsName at hname
    split at hname
    · obtain ⟨-, rfl⟩ := List.cons.inj hfaces
      refine ⟨g, gs, rfl, ?_⟩
      rcases hg with hg | hg | hg <;> simp [hg]
    · exact hname.elim
  · obtain ⟨f', fs', hcons, -⟩ := firstKind_mem head hhead
    rw [hcons] at hfaces
    obtain ⟨rfl, rfl⟩ := List.cons.inj hfaces
    obtain ⟨g', gs', rfl, hne⟩ := ih hname fs' hcons
    exact ⟨g', _, rfl, hne⟩

/-- If an expression that is more than a name begins with one, no bracket is closed after it. -/
theorem secondKind_ne (e : Expression) (h : e.Writable) (hname : ¬e.IsName) (f : Face)
    (hf : f.1 = .identifier) (fs : List Face) (hfaces : e.faces = f :: fs) :
    ∃ g gs, fs = g :: gs ∧ g.1 ≠ .symbol .rightBracket := by
  match e with
  | .atom a _ =>
    obtain ⟨rfl, rfl⟩ := List.cons.inj hfaces
    cases a with
    | identifier name => exact absurd trivial hname
    | _ => simp [Atom.face] at hf
  | .array _ _ | .dictionary _ _ | .negate _ _ | .binary _ _ _ _ =>
    obtain ⟨rfl, -⟩ := List.cons.inj hfaces
    simp at hf
  | .function _ => exact h.elim
  | .call callee arguments _ =>
    exact secondKind_append h.1 (.inl rfl) hfaces fun hn => secondKind_ne callee h.1 hn f hf
  | .property object key _ =>
    obtain ⟨ho, -, g, gs, hg, hproperty⟩ := property_parts h
    exact secondKind_append ho hg (hproperty ▸ hfaces) fun hn => secondKind_ne object ho hn f hf

/-! ### leaves -/

theorem atom?_of_face {a : Atom} (h : a.Writable) {t : Token} (ht : t.face = a.face) :
    ∃ a', atom? t = some a' ∧ a'.bare = a.bare := by
  obtain ⟨hkind, hlexeme⟩ := Prod.mk.inj ht
  unfold atom?
  rw [hkind]
  cases a with
  | null => exact ⟨_, rfl, rfl⟩
  | number v =>
    refine ⟨_, rfl, ?_⟩
    rw [hlexeme]
    exact congrArg Atom.number h.reads
  | string v =>
    refine ⟨_, rfl, ?_⟩
    have hv : stringOfLexeme ("\"" ++ v ++ "\"") = v := by simp [stringOfLexeme]
    rw [hlexeme]
    exact congrArg Atom.string hv
  | boolean b => cases b <;> exact ⟨_, rfl, rfl⟩
  | identifier name =>
    refine ⟨_, rfl, ?_⟩
    rw [hlexeme]
    rfl

end Parse

/-! ### expressions -/

open Parse Tokens

/-- An expression that the parser reads back from its faces. -/
structure Expression.Reads (e : Expression) : Prop where
  /-- It is read up to a token that opens no suffix. -/
  factor : ∀ fuel ts rest, ts.Shows e.faces rest → ¬OpensSuffix rest.peek.kind →
    (factor fuel).Reaches ts (Until rest fun e' => e'.bare = e.bare)
  /-- Unless it is a negation, it is read up to any token, where suffixes follow. -/
  suffixed : ¬e.IsNegation → ∀ fuel (ts rest : Tokens) (Q : Expression → Tokens → Prop),
    ts.Shows e.faces rest →
    (∀ fuel e', e'.bare = e.bare → (suffixes fuel e').Reaches rest Q) →
    (primary fuel >>= suffixes fuel).Reaches ts Q

/-- Expressions that are read back, up to the token that closes them. -/
def Expression.AllRead (es : List Expression) : Prop :=
  ∀ fuel close (ts rest : Tokens), ts.Shows (Expression.facesAll es) rest →
    close ∈ [Kind.symbol .rightParen, .symbol .rightBracket] → rest.peek.kind = close →
    (sequence fuel close).Reaches ts
      (Until rest fun es' => Expression.bareAll es' = Expression.bareAll es)

/-- Entries that are read back, up to the brace that closes them. -/
def Entry.AllRead (es : List Entry) : Prop :=
  ∀ fuel (ts rest : Tokens), ts.Shows (Entry.facesAll es) rest →
    rest.peek.kind = .symbol .rightBrace →
    (entries fuel).Reaches ts (Until rest fun es' => Entry.bareAll es' = Entry.bareAll es)

theorem reaches_suffixes {rest : Tokens} (hrest : ¬OpensSuffix rest.peek.kind) {e : Expression}
    {Q : Expression → Tokens → Prop} (hQ : Q e rest) (fuel : Nat) :
    (suffixes fuel e).Reaches rest Q := by
  simp only [OpensSuffix, not_or] at hrest
  cases fuel with
  | zero => trivial
  | succ fuel =>
    rw [suffixes, Reaches, answers_bind, answers_peek]
    split
    · exact absurd ‹_› hrest.1
    · exact absurd ‹_› hrest.2.1
    · exact absurd ‹_› hrest.2.2
    · exact hQ

namespace Expression.Reads

theorem of_suffixed {e : Expression} (hw : e.Writable) (hn : ¬e.IsNegation)
    (h : ∀ fuel (ts rest : Tokens) (Q : Expression → Tokens → Prop), ts.Shows e.faces rest →
      (∀ fuel e', e'.bare = e.bare → (suffixes fuel e').Reaches rest Q) →
      (primary fuel >>= suffixes fuel).Reaches ts Q) : e.Reads where
  suffixed _ := h
  factor fuel ts rest hts hrest := by
    cases fuel with
    | zero => trivial
    | succ fuel =>
      obtain ⟨f, fs, hfaces, hmem, hneg⟩ := firstKind_mem e hw
      have hkind : ¬(ts.peek.kind = .keyword .negar ∨ ts.peek.kind = .symbol .minus) := by
        rw [(hfaces ▸ hts : ts.Shows (f :: fs) rest).kind]
        rintro (hf | hf)
        · exact hn (hneg hf)
        · simp [hf, firstKinds] at hmem
      rw [Parse.factor, Reaches, answers_bind, answers_peek, if_neg hkind]
      exact h fuel ts rest _ hts fun fuel e' he' => reaches_suffixes hrest ⟨rfl, he'⟩ fuel

theorem of_primary {e : Expression} (hw : e.Writable) (hn : ¬e.IsNegation)
    (h : ∀ fuel ts rest, ts.Shows e.faces rest →
      (primary fuel).Reaches ts (Until rest fun e' => e'.bare = e.bare)) : e.Reads :=
  of_suffixed hw hn fun fuel ts rest _ hts hQ => (h fuel ts rest hts).andThen fun e' he' =>
    hQ fuel e' he'

/-- A whole expression is read up to a token that closes it. -/
theorem expression {e : Expression} (h : e.Reads) {ts rest : Tokens} (hts : ts.Shows e.faces rest)
    (hrest : Closes rest.peek.kind) (fuel : Nat) :
    (Parse.expression fuel).Reaches ts (Until rest fun e' => e'.bare = e.bare) :=
  reaches_expression .logical (reaches_operation
    (reaches_operand_of_factor (fun fuel => h.factor fuel ts rest hts hrest.suffix)
      (hrest.endsOperand _)) (hrest.operator _)) hrest fuel

theorem atom {a : Atom} {span : Span} (h : a.Writable) : (Expression.atom a span).Reads := by
  refine of_primary h (by simp [IsNegation]) fun fuel ts rest hts => ?_
  cases fuel with
  | zero => trivial
  | succ fuel =>
    obtain ⟨a', ha', hbare⟩ := atom?_of_face h hts.peek
    rw [primary, Reaches, answers_bind, answers_peek, ha']
    refine reaches_advance ⟨hts.tail.eq, ?_⟩
    simp [hbare]

theorem negate {e : Expression} {span : Span} (h : e.Reads) : (Expression.negate e span).Reads where
  suffixed hn := absurd trivial hn
  factor fuel ts rest hts hrest := by
    cases fuel with
    | zero => trivial
    | succ fuel =>
      rw [Parse.factor, Reaches, answers_bind, answers_peek, if_pos (.inl hts.kind)]
      refine reaches_advance ((h.factor fuel _ rest hts.tail hrest).andThen fun e' he' => ?_)
      exact ⟨rfl, by simp [he']⟩

theorem array {items : List Expression} {span : Span} (hw : Expression.AllWritable items)
    (h : Expression.AllRead items) : (Expression.array items span).Reads := by
  refine of_primary hw (by simp [IsNegation]) fun fuel ts rest hts => ?_
  cases fuel with
  | zero => trivial
  | succ fuel =>
    have hkind := hts.kind
    obtain ⟨mid, hitems, hclose⟩ := hts.tail.split
    rw [primary, Reaches, answers_bind, answers_peek]
    simp only [atom?, hkind]
    refine reaches_advance ?_
    refine (h fuel _ _ mid hitems (by simp) hclose.kind).andThen fun items' hbare => ?_
    refine reaches_expect hclose.kind fun t => ⟨hclose.tail.eq, ?_⟩
    simp [hbare]

theorem dictionary {entries : List Entry} {span : Span} (hw : Entry.AllWritable entries)
    (h : Entry.AllRead entries) : (Expression.dictionary entries span).Reads := by
  refine of_primary hw (by simp [IsNegation]) fun fuel ts rest hts => ?_
  cases fuel with
  | zero => trivial
  | succ fuel =>
    have hkind := hts.kind
    obtain ⟨mid, hentries, hclose⟩ := hts.tail.split
    rw [primary, Reaches, answers_bind, answers_peek]
    simp only [atom?, hkind]
    refine reaches_advance ?_
    refine (h fuel _ mid hentries hclose.kind).andThen fun entries' hbare => ?_
    refine reaches_expect hclose.kind fun t => ⟨hclose.tail.eq, ?_⟩
    simp [hbare]

/-- A binary operation stands in parentheses. Its left operand ends at the operator, which belongs
to no tighter tier. -/
theorem binary {op : Operator} {left right : Expression} {span : Span} (hl : left.Writable)
    (hr : right.Writable) (hleft : left.Reads) (hright : right.Reads) :
    (Expression.binary op left right span).Reads := by
  refine of_primary ⟨hl, hr⟩ (by simp [IsNegation]) fun fuel ts rest hts => ?_
  cases fuel with
  | zero => trivial
  | succ fuel =>
    have hkind := hts.kind
    obtain ⟨mid, hls, hop⟩ := hts.tail.split
    obtain ⟨close, hrs, hclose⟩ := hop.tail.split
    have hopkind : mid.peek.kind = op.kind := hop.kind
    have hcloses : Closes close.peek.kind := by
      rw [hclose.kind]
      exact closes_of_mem (by simp)
    have hleft' : ∀ fuel, (operand fuel op.tier).Reaches ts.advance
        (Until mid fun e' => e'.bare = left.bare) :=
      reaches_operand_of_factor
        (fun fuel => hleft.factor fuel _ mid hls (hopkind ▸ Operator.not_opensSuffix op))
        (hopkind ▸ Operator.endsOperand op)
    have hright' : ∀ fuel, (operand fuel op.tier).Reaches mid.advance
        (Until close fun e' => e'.bare = right.bare) :=
      reaches_operand_of_factor (fun fuel => hright.factor fuel _ close hrs hcloses.suffix)
        (hcloses.endsOperand _)
    have hbinary := reaches_binary hopkind hleft' hright' (hcloses.operator _)
      (Q := fun e' => e'.bare = (Expression.binary op left right span).bare)
      fun l r span hl hr => by simp [hl, hr]
    rw [primary, Reaches, answers_bind, answers_peek]
    simp only [atom?, hkind]
    refine reaches_advance ((reaches_expression op.tier hbinary hcloses fuel).andThen fun e' he' => ?_)
    exact reaches_expect hclose.kind fun t => ⟨hclose.tail.eq, he'⟩

theorem call {callee : Expression} {arguments : List Expression} {span : Span}
    (hw : (Expression.call callee arguments span).Writable) (hcallee : callee.Reads)
    (harguments : Expression.AllRead arguments) :
    (Expression.call callee arguments span).Reads := by
  refine of_suffixed hw (by simp [IsNegation]) fun fuel ts rest Q hts hQ => ?_
  obtain ⟨mid, hcs, hopen⟩ := Shows.split hts
  refine hcallee.suffixed hw.2.1 fuel ts mid Q hcs fun fuel callee' hc => ?_
  cases fuel with
  | zero => trivial
  | succ fuel =>
    have hkind := hopen.kind
    obtain ⟨close, hitems, hclose⟩ := hopen.tail.split
    rw [suffixes, Reaches, answers_bind, answers_peek]
    simp only [hkind]
    refine reaches_advance ?_
    refine (harguments fuel _ _ close hitems (by simp) hclose.kind).andThen fun as has => ?_
    refine reaches_expect hclose.kind fun t => ?_
    rw [hclose.tail.eq]
    exact hQ fuel _ (by simp [hc, has])

theorem field {object : Expression} {name : String} {span span' : Span}
    (hw : (Expression.property object (.atom (.string name) span) span').Writable)
    (hobject : object.Reads) :
    (Expression.property object (.atom (.string name) span) span').Reads := by
  refine of_suffixed hw (by simp [IsNegation]) fun fuel ts rest Q hts hQ => ?_
  obtain ⟨mid, hos, hdot⟩ := Shows.split hts
  refine hobject.suffixed hw.2.1 fuel ts mid Q hos fun fuel object' ho => ?_
  cases fuel with
  | zero => trivial
  | succ fuel =>
    have hkind := hdot.kind
    rw [suffixes, Reaches, answers_bind, answers_peek]
    simp only [hkind]
    refine reaches_advance (reaches_ident hdot.tail fun name' hname => ?_)
    rw [hdot.tail.tail.eq]
    exact hQ fuel _ (by simp [ho, hname, Atom.bare])

theorem index {object key : Expression} {span : Span}
    (hkey : ∀ name span, key = .atom (.string name) span → False)
    (hw : (Expression.property object key span).Writable) (hobject : object.Reads)
    (hkeys : key.Reads) : (Expression.property object key span).Reads := by
  refine of_suffixed hw (by simp [IsNegation]) fun fuel ts rest Q hts hQ => ?_
  simp only [faces] at hts
  obtain ⟨mid, hos, hopen⟩ := hts.split
  refine hobject.suffixed (property_parts hw).2.1 fuel ts mid Q hos fun fuel object' ho => ?_
  cases fuel with
  | zero => trivial
  | succ fuel =>
    have hkind := hopen.kind
    obtain ⟨close, hks, hclose⟩ := hopen.tail.split
    rw [suffixes, Reaches, answers_bind, answers_peek]
    simp only [hkind]
    refine reaches_advance ?_
    have hcloses : Closes close.peek.kind := by
      rw [hclose.kind]
      exact closes_of_mem (by simp)
    refine (hkeys.expression hks hcloses fuel).andThen fun key' hk => ?_
    refine reaches_expect hclose.kind fun t => ?_
    rw [hclose.tail.eq]
    exact hQ fuel _ (by simp [ho, hk])

end Expression.Reads

/-! ### lists and entries -/

/-- What follows an item of a list: nothing, or a comma and the items after it. -/
def FollowsItem (after fs : List Face) : Prop :=
  after = [] ∧ fs = [] ∨ after = (.symbol .comma, ",") :: fs

theorem Expression.followsItem (es : List Expression) :
    FollowsItem (Expression.facesAfter es) (Expression.facesAll es) := by
  cases es with
  | nil => exact .inl ⟨rfl, rfl⟩
  | cons e es => exact .inr rfl

theorem Entry.followsItem (es : List Entry) :
    FollowsItem (Entry.facesAfter es) (Entry.facesAll es) := by
  cases es with
  | nil => exact .inl ⟨rfl, rfl⟩
  | cons e es => exact .inr rfl

namespace FollowsItem

variable {after fs : List Face} {mid rest : Tokens}

theorem closes (h : FollowsItem after fs) (hmid : mid.Shows after rest)
    (hrest : Closes rest.peek.kind) : Closes mid.peek.kind := by
  rcases h with ⟨rfl, -⟩ | rfl
  · exact hmid.eq ▸ hrest
  · rw [hmid.kind]
    exact closes_of_mem (by simp)

theorem reaches {β : Type} {k : Bool → Parse β} {Q : β → Tokens → Prop} (h : FollowsItem after fs)
    (hmid : mid.Shows after rest) (hrest : rest.peek.kind ≠ .symbol .comma)
    (hk : ∀ b mid, mid.Shows fs rest → (k b).Reaches mid Q) :
    (accept (.symbol .comma) >>= k).Reaches mid Q := by
  rcases h with ⟨rfl, rfl⟩ | rfl
  · exact reaches_accept_not (hmid.eq ▸ hrest) (hk false mid hmid)
  · exact reaches_accept hmid.kind (hk true _ hmid.tail)

end FollowsItem

theorem Expression.AllRead.nil : Expression.AllRead [] := by
  intro fuel close ts rest hts hclose hrest
  obtain rfl := hts.eq
  cases fuel with
  | zero => trivial
  | succ fuel =>
    rw [Parse.sequence, Reaches, answers_bind, answers_peek]
    dsimp only
    rw [if_pos (.inl hrest)]
    exact ⟨rfl, rfl⟩

theorem Expression.AllRead.cons {e : Expression} {es : List Expression} (hw : e.Writable)
    (he : e.Reads) (hes : Expression.AllRead es) : Expression.AllRead (e :: es) := by
  intro fuel close ts rest hts hclose hrest
  cases fuel with
  | zero => trivial
  | succ fuel =>
    obtain ⟨mid, hitem, hafter⟩ := Shows.split hts
    have hkinds : close = .symbol .rightParen ∨ close = .symbol .rightBracket := by
      simpa using hclose
    have hfirst : ¬(ts.peek.kind = close ∨ ts.peek.kind = .eof) := by
      obtain ⟨f, fs, hfaces, hmem, -⟩ := firstKind_mem e hw
      rw [(hfaces ▸ hitem : ts.Shows (f :: fs) mid).kind]
      rintro (hf | hf)
      · rcases hkinds with rfl | rfl <;> simp [hf, firstKinds] at hmem
      · simp [hf, firstKinds] at hmem
    have hcloses : Closes rest.peek.kind := by
      rw [hrest]
      exact closes_of_mem (by rcases hkinds with rfl | rfl <;> simp)
    have hcomma : rest.peek.kind ≠ .symbol .comma := by
      rw [hrest]
      rcases hkinds with rfl | rfl <;> simp
    have hfollows := Expression.followsItem es
    rw [Parse.sequence, Reaches, answers_bind, answers_peek]
    dsimp only
    rw [if_neg hfirst]
    refine (he.expression hitem (hfollows.closes hafter hcloses) fuel).andThen fun e' he' => ?_
    refine hfollows.reaches hafter hcomma fun _ mid hmid => ?_
    refine (hes fuel close mid rest hmid hclose hrest).andThen fun es' hes' => ?_
    exact ⟨rfl, by simp [he', hes']⟩

/-- A key that is read back. -/
theorem Key.reaches {k : Key} (hw : k.Writable) (hk : ∀ e, k = .computed e → e.Reads)
    {ts rest : Tokens} (hts : ts.Shows k.faces rest) (fuel : Nat) :
    (key fuel).Reaches ts (Until rest fun k' => k'.bare = k.bare) := by
  cases fuel with
  | zero => trivial
  | succ fuel =>
    rw [key]
    cases k with
    | name name =>
      refine reaches_accept_not (by simp [hts.kind]) ?_
      rw [if_neg (by simp), Reaches, answers_bind, answers_peek, if_pos hts.kind]
      refine reaches_ident hts fun name' hname => ⟨hts.tail.eq, ?_⟩
      simp [Ident.bare, hname]
    | computed e =>
      refine reaches_accept hts.kind ?_
      obtain ⟨close, hes, hclose⟩ := hts.tail.split
      obtain ⟨f, fs, hfaces, -⟩ := firstKind_mem e hw.1
      -- A name alone would be read as the name it is.
      have hmore : ¬(ts.advance.peek.kind = .identifier ∧
          ts.advance.peekSecond.kind = .symbol .rightBracket) := by
        have hshows : ts.advance.Shows (f :: (fs ++ [(.symbol .rightBracket, "]")])) rest := by
          have := hts.tail
          rwa [hfaces] at this
        rintro ⟨hname, hbracket⟩
        obtain ⟨g, gs, rfl, hne⟩ :=
          secondKind_ne e hw.1 hw.2 f (hshows.kind ▸ hname) fs hfaces
        exact hne (hshows.second ▸ hbracket)
      have hcloses : Closes close.peek.kind := by
        rw [hclose.kind]
        exact closes_of_mem (by simp)
      simp only [if_true, Reaches, answers_bind, answers_peek, answers_peekSecond]
      rw [if_neg hmore]
      refine ((hk e rfl).expression hes hcloses fuel).andThen fun e' he' => ?_
      rw [Reaches, answers_bind, answers_pure]
      refine reaches_expect hclose.kind fun t => ⟨hclose.tail.eq, ?_⟩
      simp [he']

theorem Entry.AllRead.nil : Entry.AllRead [] := by
  intro fuel ts rest hts hrest
  obtain rfl := hts.eq
  cases fuel with
  | zero => trivial
  | succ fuel =>
    rw [entries, Reaches, answers_bind, answers_peek, if_pos hrest]
    exact ⟨rfl, rfl⟩

theorem Entry.AllRead.cons {k : Key} {value : Expression} {es : List Entry} (hw : k.Writable)
    (hk : ∀ e, k = .computed e → e.Reads) (hvalue : value.Reads) (hes : Entry.AllRead es) :
    Entry.AllRead (.mk k value :: es) := by
  intro fuel ts rest hts hrest
  cases fuel with
  | zero => trivial
  | succ fuel =>
    obtain ⟨mid, hentry, hafter⟩ := Shows.split hts
    obtain ⟨equal, hks, hequal⟩ := Shows.split hentry
    have hfirst : ts.peek.kind ≠ .symbol .rightBrace := by
      cases k with
      | name name => simp [hks.kind]
      | computed e => simp [hks.kind]
    have hcloses : Closes rest.peek.kind := by
      rw [hrest]
      exact closes_of_mem (by simp)
    have hfollows := Entry.followsItem es
    rw [entries, Reaches, answers_bind, answers_peek, if_neg hfirst]
    refine (Key.reaches hw hk hks fuel).andThen fun k' hk' => ?_
    refine reaches_expect hequal.kind fun t => ?_
    refine (hvalue.expression hequal.tail (hfollows.closes hafter hcloses) fuel).andThen
      fun value' hvalue' => ?_
    refine hfollows.reaches hafter (by simp [hrest]) fun _ mid hmid => ?_
    refine (hes fuel mid rest hmid hrest).andThen fun es' hes' => ?_
    exact ⟨rfl, by simp [hk', hvalue', hes']⟩

/-! ### the whole -/

mutual

/-- Every expression that can be written is read back. -/
theorem Expression.reads (e : Expression) (h : e.Writable) : e.Reads := by
  match e with
  | .atom a _ => exact .atom h
  | .array items _ => exact .array h (Expression.allRead items h)
  | .dictionary entries _ => exact .dictionary h (Entry.allRead entries h)
  | .function _ => exact h.elim
  | .negate operand _ => exact .negate (Expression.reads operand h)
  | .binary op left right _ =>
    exact .binary h.1 h.2 (Expression.reads left h.1) (Expression.reads right h.2)
  | .call callee arguments _ =>
    exact .call h (Expression.reads callee h.1) (Expression.allRead arguments h.2.2)
  | .property object key _ =>
    have hobject := Expression.reads object (property_parts h).1
    rcases key.string_or_not with ⟨name, _, rfl⟩ | hkey
    · exact .field h hobject
    · have hw : key.Writable := by
        simp only [Expression.Writable] at h
        exact h.2.2
      exact .index hkey h hobject (Expression.reads key hw)

theorem Expression.allRead (es : List Expression) (h : Expression.AllWritable es) :
    Expression.AllRead es := by
  match es with
  | [] => exact .nil
  | e :: es => exact .cons h.1 (Expression.reads e h.1) (Expression.allRead es h.2)

theorem Entry.allRead (es : List Entry) (h : Entry.AllWritable es) : Entry.AllRead es := by
  match es with
  | [] => exact .nil
  | .mk (.name name) value :: es =>
    exact .cons h.1.1 (fun e he => by cases he) (Expression.reads value h.1.2)
      (Entry.allRead es h.2)
  | .mk (.computed key) value :: es =>
    exact .cons h.1.1 (fun e he => by cases he; exact Expression.reads key h.1.1.1)
      (Expression.reads value h.1.2) (Entry.allRead es h.2)

end

/-- **Printing and then parsing an expression is the identity up to spans.** -/
theorem Expression.ofText_text (e : Expression) (h : e.Writable) :
    ∃ e', Expression.ofText e.text = .ok e' ∧ e'.bare = e.bare := by
  have hspells : Spells e.text.toList e.faces [] := by
    simpa using Expression.spells e h Stops.nil
  obtain ⟨ts, finish, htokens, hfaces⟩ := hspells.tokensOf
  have hshows : (Tokens.mk ts finish).Shows e.faces ⟨[], finish⟩ :=
    ⟨ts, ⟨by simp, rfl⟩, hfaces⟩
  have hend : (Tokens.mk [] finish).peek.kind = .eof := htokens.finish
  have hreaches : (expressionOnly (Tokens.mk ts finish).fuel).Reaches ⟨ts, finish⟩
      fun e' _ => e'.bare = e.bare := by
    refine ((Expression.reads e h).expression hshows (hend ▸ closes_of_mem (by simp)) _).andThen
      fun e' he' => ?_
    exact reaches_expect hend fun t => he'
  have hfuel := expressionOnly_answers (Tokens.mk ts finish).fuel _ htokens.ended
  rw [Expression.ofText, Parser.expression, htokens.run]
  unfold Reaches at hreaches
  unfold Parse.Answers at hreaches hfuel
  cases hp : expressionOnly (Tokens.mk ts finish).fuel ⟨ts, finish⟩ with
  | ok e' rest =>
    rw [hp] at hreaches
    exact ⟨e', rfl, hreaches⟩
  | fail e rest =>
    rw [hp] at hreaches
    exact hreaches.elim
  | exhausted =>
    rw [hp] at hfuel
    simp only [Tokens.fuel] at hfuel
    omega

/-- An expression of many kinds, written `(negar f.x(2.5) * \x7bk = "s", [a[b]] = []\x7d)`. -/
theorem Expression.ofText_text_product : ∃ e : Expression,
    e.text = "(negar f.x(2.5) * \x7bk = \"s\", [a[b]] = []\x7d)" ∧ e.Writable ∧
      ∃ e', Expression.ofText e.text = .ok e' ∧ e'.bare = e.bare := by
  have name : ∀ s ∈ ["f", "x", "k", "a", "b"], IsIdentifier s := by
    have items : ∀ s ∈ ["f", "x", "k", "a", "b"], tokenize s =
        ([⟨.identifier, s, ⟨0, 1⟩, 1⟩] ++ [⟨.eof, "", ⟨1, 0⟩, 1⟩] : List Token).map .ok := by
      decide +kernel
    intro s hs
    exact ⟨_, _, ⟨items s hs, rfl, by simp⟩, rfl⟩
  have number : IsWritableNumber 2.5 := by
    refine ⟨?_, by decide +kernel, by decide +kernel⟩
    have hfinite : ((2.5 : Float).toBits.toNat >>> 52) % 2048 ≠ 2047 := by decide +kernel
    unfold Decimal.decode
    simp only [hfinite, if_false]
    split <;> exact ⟨_, _, rfl⟩
  let ident (s : String) : Expression := .atom (.identifier ⟨s, .nowhere⟩) .nowhere
  let e : Expression := .binary .multiply
    (.negate (.call (.property (ident "f") (.atom (.string "x") .nowhere) .nowhere)
      [.atom (.number 2.5) .nowhere] .nowhere) .nowhere)
    (.dictionary [.mk (.name ⟨"k", .nowhere⟩) (.atom (.string "s") .nowhere),
      .mk (.computed (.property (ident "a") (ident "b") .nowhere)) (.array [] .nowhere)] .nowhere)
    .nowhere
  have h : e.Writable := by
    simp [e, ident, Expression.Writable, Expression.AllWritable, Entry.AllWritable, Entry.Writable,
      Key.Writable, Atom.Writable, Expression.IsNegation, Expression.IsName, number, name]
  exact ⟨e, by decide +kernel, h, Expression.ofText_text e h⟩

end Roteiro
