import Roteiro.Parser.Grammar

/-!
The grammar of scripts as relations between tokens and trees. A derivation cuts the tokens of a tree
into the tokens of its parts, every token being used once and in order. Expressions stand on levels:
four tiers of binary operators that associate to the left, then the two negations, then calls and
properties, then leaves, literals and parentheses. The relations also say which span each node has;
parentheses do not count into it.
-/

namespace Roteiro

/-! ### single tokens -/

/-- The kind of token that an operator is written as. -/
def Operator.kind : Operator → Kind
  | and => .keyword .e
  | or => .keyword .ou
  | equal => .symbol .equalEqual
  | notEqual => .symbol .bangEqual
  | greater => .symbol .greater
  | greaterEqual => .symbol .greaterEqual
  | less => .symbol .less
  | lessEqual => .symbol .lessEqual
  | add => .symbol .plus
  | subtract => .symbol .minus
  | multiply => .symbol .star
  | divide => .symbol .slash
  | modulo => .symbol .percent

/-- A token that is a leaf on its own. -/
inductive Token.IsLeaf (t : Token) : Atom → Prop
  | null : t.kind = .keyword .nulo → IsLeaf t .null
  | number : t.kind = .number → IsLeaf t (.number (numberOfLexeme t.lexeme))
  | string : t.kind = .string → IsLeaf t (.string (stringOfLexeme t.lexeme))
  | verdadeiro : t.kind = .keyword .verdadeiro → IsLeaf t (.boolean true)
  | falso : t.kind = .keyword .falso → IsLeaf t (.boolean false)
  | identifier : t.kind = .identifier → IsLeaf t (.identifier ⟨t.lexeme, t.span⟩)

/-- A token that is a name. -/
def Token.IsName (t : Token) (name : Ident) : Prop :=
  t.kind = .identifier ∧ name = ⟨t.lexeme, t.span⟩

/-- A comma that may be missing. -/
inductive OptionalComma : List Token → Prop
  | missing : OptionalComma []
  | comma {t : Token} : t.kind = .symbol .comma → OptionalComma [t]

/-- Parameters, each of which may be followed by a comma. -/
inductive DerivesParameters : List Token → List Ident → Prop
  | nil : DerivesParameters [] []
  | cons {t : Token} {comma rest : List Token} {name : Ident} {names : List Ident} :
      t.IsName name → OptionalComma comma → DerivesParameters rest names →
      DerivesParameters (t :: (comma ++ rest)) (name :: names)

/-- An expression that can be assigned to, and what is then written to. -/
inductive Expression.IsTarget : Expression → Target → Prop
  | name (name : Ident) (span : Span) : IsTarget (.atom (.identifier name) span) (.name name)
  | property (object key : Expression) (span : Span) :
      IsTarget (.property object key span) (.property object key)

/-! ### levels -/

/-- The levels of expressions, loosest first. -/
inductive Level where
  | tier (tier : Tier)
  | negation
  | suffixed
  | primary
  deriving Repr, DecidableEq

/-- The level on which whole expressions stand. -/
abbrev Level.whole : Level := .tier .logical

/-- The level on which the operands of a tier stand. -/
def Tier.operand : Tier → Level
  | .logical => .tier .comparison
  | .comparison => .tier .additive
  | .additive => .tier .multiplicative
  | .multiplicative => .negation

/-! ### trees -/

mutual

/-- The tokens of an expression that stands on a level. -/
inductive Derives : Level → List Token → Expression → Prop
  /-- What stands on the level of operands also stands on the tier. -/
  | operand {tier : Tier} {ts : List Token} {e : Expression} :
      Derives tier.operand ts e → Derives (.tier tier) ts e
  /-- An operator joins what is on its left, on the same tier, with an operand on its right. -/
  | binary {op : Operator} {ls rs : List Token} {t : Token} {left right : Expression} :
      Derives (.tier op.tier) ls left → t.kind = op.kind → Derives op.tier.operand rs right →
      Derives (.tier op.tier) (ls ++ t :: rs) (.binary op left right (left.span.merge right.span))
  | negate {t : Token} {ts : List Token} {e : Expression} :
      t.kind = .keyword .negar ∨ t.kind = .symbol .minus → Derives .negation ts e →
      Derives .negation (t :: ts) (.negate e (t.span.merge e.span))
  | suffixed {ts : List Token} {e : Expression} :
      Derives .suffixed ts e → Derives .negation ts e
  | call {fs ts : List Token} {opening closing : Token} {callee : Expression}
      {arguments : List Expression} :
      Derives .suffixed fs callee → opening.kind = .symbol .leftParen →
      DerivesItems ts arguments → closing.kind = .symbol .rightParen →
      Derives .suffixed (fs ++ opening :: (ts ++ [closing]))
        (.call callee arguments (callee.span.merge closing.span))
  | field {os : List Token} {dot t : Token} {object : Expression} {name : Ident} :
      Derives .suffixed os object → dot.kind = .symbol .dot → t.IsName name →
      Derives .suffixed (os ++ [dot, t])
        (.property object (.atom (.string name.text) name.span) (object.span.merge name.span))
  | index {os ks : List Token} {opening closing : Token} {object key : Expression} :
      Derives .suffixed os object → opening.kind = .symbol .leftBracket →
      Derives .whole ks key → closing.kind = .symbol .rightBracket →
      Derives .suffixed (os ++ opening :: (ks ++ [closing]))
        (.property object key (object.span.merge closing.span))
  | primary {ts : List Token} {e : Expression} :
      Derives .primary ts e → Derives .suffixed ts e
  | leaf {t : Token} {a : Atom} :
      t.IsLeaf a → Derives .primary [t] (.atom a t.span)
  | parens {opening closing : Token} {ts : List Token} {e : Expression} :
      opening.kind = .symbol .leftParen → Derives .whole ts e →
      closing.kind = .symbol .rightParen → Derives .primary (opening :: (ts ++ [closing])) e
  | array {opening closing : Token} {ts : List Token} {items : List Expression} :
      opening.kind = .symbol .leftBracket → DerivesItems ts items →
      closing.kind = .symbol .rightBracket →
      Derives .primary (opening :: (ts ++ [closing]))
        (.array items (opening.span.merge closing.span))
  | dictionary {opening closing : Token} {ts : List Token} {entries : List Entry} :
      opening.kind = .symbol .leftBrace → DerivesEntries ts entries →
      closing.kind = .symbol .rightBrace →
      Derives .primary (opening :: (ts ++ [closing]))
        (.dictionary entries (opening.span.merge closing.span))
  | function {ts : List Token} {routine : Routine} :
      DerivesRoutine ts routine → routine.name = none → Derives .primary ts (.function routine)

/-- Expressions, each of which may be followed by a comma. -/
inductive DerivesItems : List Token → List Expression → Prop
  | nil : DerivesItems [] []
  | cons {ts comma rest : List Token} {e : Expression} {es : List Expression} :
      Derives .whole ts e → OptionalComma comma → DerivesItems rest es →
      DerivesItems (ts ++ (comma ++ rest)) (e :: es)

/-- Entries of a dictionary, each of which may be followed by a comma. -/
inductive DerivesEntries : List Token → List Entry → Prop
  | nil : DerivesEntries [] []
  | cons {ks vs comma rest : List Token} {equal : Token} {key : Key} {value : Expression}
      {entries : List Entry} :
      DerivesKey ks key → equal.kind = .symbol .equal → Derives .whole vs value →
      OptionalComma comma → DerivesEntries rest entries →
      DerivesEntries (ks ++ equal :: (vs ++ (comma ++ rest))) (.mk key value :: entries)

/-- The key of an entry. A name alone stands for itself, in brackets or not; any other key is an
expression in brackets. -/
inductive DerivesKey : List Token → Key → Prop
  | name {t : Token} {name : Ident} : t.IsName name → DerivesKey [t] (.name name)
  | bracketed {opening t closing : Token} {name : Ident} :
      opening.kind = .symbol .leftBracket → t.IsName name →
      closing.kind = .symbol .rightBracket → DerivesKey [opening, t, closing] (.name name)
  | computed {opening closing : Token} {ts : List Token} {e : Expression} :
      opening.kind = .symbol .leftBracket → Derives .whole ts e →
      (∀ t, ts = [t] → t.kind ≠ .identifier) → closing.kind = .symbol .rightBracket →
      DerivesKey (opening :: (ts ++ [closing])) (.computed e)

/-- A routine, with or without a name. -/
inductive DerivesRoutine : List Token → Routine → Prop
  | anonymous {word opening closing fim : Token} {ps bs : List Token} {parameters : List Ident}
      {body : List Statement} :
      word.kind = .keyword .funcao → opening.kind = .symbol .leftParen →
      DerivesParameters ps parameters → closing.kind = .symbol .rightParen →
      DerivesBody bs body → fim.kind = .keyword .fim →
      DerivesRoutine (word :: opening :: (ps ++ closing :: (bs ++ [fim])))
        (.mk none parameters body (word.span.merge fim.span))
  | named {word t opening closing fim : Token} {ps bs : List Token} {name : Ident}
      {parameters : List Ident} {body : List Statement} :
      word.kind = .keyword .funcao → t.IsName name → opening.kind = .symbol .leftParen →
      DerivesParameters ps parameters → closing.kind = .symbol .rightParen →
      DerivesBody bs body → fim.kind = .keyword .fim →
      DerivesRoutine (word :: t :: opening :: (ps ++ closing :: (bs ++ [fim])))
        (.mk (some name) parameters body (word.span.merge fim.span))

/-- Statements one after the other. -/
inductive DerivesBody : List Token → List Statement → Prop
  | nil : DerivesBody [] []
  | cons {ts rest : List Token} {s : Statement} {ss : List Statement} :
      DerivesStatement ts s → DerivesBody rest ss → DerivesBody (ts ++ rest) (s :: ss)

/-- An assignment. -/
inductive DerivesAssignment : List Token → Assignment → Prop
  | mk {ls vs : List Token} {equal : Token} {left value : Expression} {target : Target} :
      Derives .whole ls left → left.IsTarget target → equal.kind = .symbol .equal →
      Derives .whole vs value →
      DerivesAssignment (ls ++ equal :: vs) (.mk target value (left.span.merge value.span))

/-- An expression behind a keyword, both of which may be missing. -/
inductive DerivesClause : Keyword → List Token → Option Expression → Prop
  | missing (keyword : Keyword) : DerivesClause keyword [] none
  | given {keyword : Keyword} {word : Token} {ts : List Token} {e : Expression} :
      word.kind = .keyword keyword → Derives .whole ts e →
      DerivesClause keyword (word :: ts) (some e)

/-- The step of a loop over a counter, which may be missing. -/
inductive DerivesStep : List Token → Option Assignment → Prop
  | missing : DerivesStep [] none
  | given {word : Token} {ts : List Token} {a : Assignment} :
      word.kind = .keyword .opere → DerivesAssignment ts a → DerivesStep (word :: ts) (some a)

/-- The branches of a conditional after its first word; `last` is the word that closes the last of
them. -/
inductive DerivesBranches : List Token → List Branch → (last : Token) → Prop
  | single {cs bs : List Token} {faca fim : Token} {condition : Expression}
      {body : List Statement} :
      Derives .whole cs condition → faca.kind = .keyword .faca → DerivesBody bs body →
      fim.kind = .keyword .fim →
      DerivesBranches (cs ++ faca :: (bs ++ [fim])) [.mk condition body] fim
  | more {cs bs rest : List Token} {faca fim caso last : Token} {condition : Expression}
      {body : List Statement} {branches : List Branch} :
      Derives .whole cs condition → faca.kind = .keyword .faca → DerivesBody bs body →
      fim.kind = .keyword .fim → caso.kind = .keyword .caso →
      DerivesBranches rest branches last →
      DerivesBranches (cs ++ faca :: (bs ++ fim :: caso :: rest)) (.mk condition body :: branches)
        last

/-- Expressions, each behind a comma. -/
inductive DerivesMoreValues : List Token → List Expression → Prop
  | nil : DerivesMoreValues [] []
  | cons {comma : Token} {ts rest : List Token} {e : Expression} {es : List Expression} :
      comma.kind = .symbol .comma → Derives .whole ts e → DerivesMoreValues rest es →
      DerivesMoreValues (comma :: (ts ++ rest)) (e :: es)

/-- A statement. -/
inductive DerivesStatement : List Token → Statement → Prop
  | declaration {word t equal : Token} {vs : List Token} {name : Ident} {value : Expression} :
      word.kind = .keyword .declarar → t.IsName name → equal.kind = .symbol .equal →
      Derives .whole vs value →
      DerivesStatement (word :: t :: equal :: vs)
        (.declaration name value (word.span.merge value.span))
  | assignment {ts : List Token} {a : Assignment} :
      DerivesAssignment ts a → DerivesStatement ts (.assignment a)
  | expression {ts : List Token} {e : Expression} :
      Derives .whole ts e → DerivesStatement ts (.expression e)
  | block {word fim : Token} {bs : List Token} {body : List Statement} :
      word.kind = .keyword .bloco → DerivesBody bs body → fim.kind = .keyword .fim →
      DerivesStatement (word :: (bs ++ [fim])) (.block body (word.span.merge fim.span))
  | whileLoop {word faca fim : Token} {cs bs : List Token} {condition : Expression}
      {body : List Statement} :
      word.kind = .keyword .enquanto → Derives .whole cs condition → faca.kind = .keyword .faca →
      DerivesBody bs body → fim.kind = .keyword .fim →
      DerivesStatement (word :: (cs ++ faca :: (bs ++ [fim])))
        (.whileLoop condition body (word.span.merge fim.span))
  | countLoop {word t faca fim : Token} {fs ls ss bs : List Token} {counter : Ident}
      {first limit : Option Expression} {step : Option Assignment} {body : List Statement} :
      word.kind = .keyword .para → t.IsName counter → DerivesClause .de fs first →
      DerivesClause .ate ls limit → DerivesStep ss step → faca.kind = .keyword .faca →
      DerivesBody bs body → fim.kind = .keyword .fim →
      DerivesStatement (word :: t :: (fs ++ (ls ++ (ss ++ faca :: (bs ++ [fim])))))
        (.countLoop counter first limit step body (word.span.merge fim.span))
  | eachLoop {word cada t comma u em faca fim : Token} {cs bs : List Token} {key value : Ident}
      {collection : Expression} {body : List Statement} :
      word.kind = .keyword .para → cada.kind = .keyword .cada → t.IsName key →
      comma.kind = .symbol .comma → u.IsName value → em.kind = .keyword .em →
      Derives .whole cs collection → faca.kind = .keyword .faca → DerivesBody bs body →
      fim.kind = .keyword .fim →
      DerivesStatement (word :: cada :: t :: comma :: u :: em :: (cs ++ faca :: (bs ++ [fim])))
        (.eachLoop key value collection body (word.span.merge fim.span))
  | function {ts : List Token} {routine : Routine} {name : Ident} :
      DerivesRoutine ts routine → routine.name = some name →
      DerivesStatement ts (.function routine)
  | conditional {word last : Token} {bs : List Token} {branches : List Branch} :
      word.kind = .keyword .se → DerivesBranches bs branches last →
      DerivesStatement (word :: bs) (.conditional branches none (word.span.merge last.span))
  | conditionalElse {word last senao faca fim : Token} {bs os : List Token}
      {branches : List Branch} {otherwise : List Statement} :
      word.kind = .keyword .se → DerivesBranches bs branches last →
      senao.kind = .keyword .senao → faca.kind = .keyword .faca → DerivesBody os otherwise →
      fim.kind = .keyword .fim →
      DerivesStatement (word :: (bs ++ senao :: faca :: (os ++ [fim])))
        (.conditional branches (some otherwise) (word.span.merge fim.span))
  | breakLoop {word : Token} :
      word.kind = .keyword .parar → DerivesStatement [word] (.breakLoop word.span)
  | continueLoop {word : Token} :
      word.kind = .keyword .continuar → DerivesStatement [word] (.continueLoop word.span)
  | returnNothing {word : Token} :
      word.kind = .keyword .retorna → DerivesStatement [word] (.returnValues [] word.span)
  | returnValues {word : Token} {ts rest : List Token} {first : Expression}
      {more : List Expression} :
      word.kind = .keyword .retorna → Derives .whole ts first → DerivesMoreValues rest more →
      DerivesStatement (word :: (ts ++ rest))
        (.returnValues (first :: more)
          ((first :: more).foldl (fun s e => s.merge e.span) word.span))

end

/-! ### derivations use tokens -/

theorem DerivesRoutine.ne_nil {ts : List Token} {routine : Routine}
    (h : DerivesRoutine ts routine) : ts ≠ [] := by
  cases h with
  | anonymous => simp
  | named => simp

theorem Derives.ne_nil {level : Level} {ts : List Token} {e : Expression} :
    Derives level ts e → ts ≠ []
  | .operand h => h.ne_nil
  | .binary _ _ _ => by simp
  | .negate _ _ => by simp
  | .suffixed h => h.ne_nil
  | .call _ _ _ _ => by simp
  | .field _ _ _ => by simp
  | .index _ _ _ _ => by simp
  | .primary h => h.ne_nil
  | .leaf _ => by simp
  | .parens _ _ _ => by simp
  | .array _ _ _ => by simp
  | .dictionary _ _ _ => by simp
  | .function h _ => h.ne_nil

theorem DerivesStatement.ne_nil {ts : List Token} {s : Statement} (h : DerivesStatement ts s) :
    ts ≠ [] := by
  cases h with
  | assignment h => cases h; simp
  | expression h => exact h.ne_nil
  | function h _ => exact h.ne_nil
  | _ => simp

end Roteiro
