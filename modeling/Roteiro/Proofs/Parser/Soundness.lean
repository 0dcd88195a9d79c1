import Roteiro.Parser.Source
import Roteiro.Proofs.Parser.Answers
import Roteiro.Proofs.Token.Tiling

/-!
The parser is sound for the grammar, and its fuel is enough. Whatever a parser of the group answers
with is derived from exactly the tokens it has used, and it is out of fuel only if it was given at
most sixteen units for each token ahead and a few more. One unit of fuel more keeps this for every
function of the group, so it holds for all of them (`SoundGroup.all`), and from it for the scripts
and expressions of every source.
-/

namespace Roteiro

/-! ### tokens by themselves -/

namespace Parse

open Tokens

theorem operator?_eq_some {tier : Tier} {kind : Kind} {op : Operator}
    (h : operator? tier kind = some op) : op.tier = tier ∧ kind = op.kind := by
  unfold operator? at h
  split at h <;> cases h <;> exact ⟨rfl, rfl⟩

theorem atom?_eq_some {t : Token} {a : Atom} (h : atom? t = some a) : t.IsLeaf a := by
  unfold atom? at h
  split at h <;> cases h
  · exact .number ‹_›
  · exact .string ‹_›
  · exact .identifier ‹_›
  · exact .verdadeiro ‹_›
  · exact .falso ‹_›
  · exact .null ‹_›

theorem answers_target {ts : Tokens} {Q : Target → Tokens → Prop} {out : Prop} {e : Expression}
    (hQ : ∀ target, e.IsTarget target → Q target ts) : (target e).Answers ts Q True out := by
  unfold target
  split
  · exact hQ _ (.name _ _)
  · exact hQ _ (.property _ _ _)
  · trivial

theorem parameters_sound (fuel : Nat) :
    Sound fuel 0 (parameters fuel) DerivesParameters := by
  induction fuel with
  | zero => intro ts _; simp [parameters]
  | succ fuel ih =>
    intro ts hts
    rw [parameters, answers_bind, answers_peek]
    split_ifs with h
    · refine (Uses.refl ts).ident hts fun t name rest hu ht => ?_
      refine hu.comma hts fun _ comma rest hu hcomma => ?_
      refine hu.andThen hts ih (by simp) fun names more rest hu hmore => ?_
      exact ⟨_, hu, by simpa using .cons ht hcomma hmore⟩
    · exact ⟨[], Uses.refl ts, .nil⟩

/-- The tokens of an operand on the left, and those of the operators and operands that follow
it. -/
def DerivesChain (tier : Tier) (left : Expression) (ts : List Token) (e : Expression) : Prop :=
  ∀ ls, Derives (.tier tier) ls left → Derives (.tier tier) (ls ++ ts) e

/-- The tokens of an expression, and those of the calls and properties that follow it. -/
def DerivesSuffixes (head : Expression) (ts : List Token) (e : Expression) : Prop :=
  ∀ hs, Derives .suffixed hs head → Derives .suffixed (hs ++ ts) e

/-- The rank of the operands of a tier. -/
def operandRank : Tier → Nat
  | .multiplicative => 3
  | .additive => 5
  | .comparison => 7
  | .logical => 9

/-- All functions of the group are sound with some fuel. -/
structure SoundGroup (fuel : Nat) : Prop where
  expression : Sound fuel 11 (expression fuel) (Derives .whole)
  operation : ∀ tier, Sound fuel (operandRank tier + 1) (operation fuel tier) (Derives (.tier tier))
  operand : ∀ tier, Sound fuel (operandRank tier) (operand fuel tier) (Derives tier.operand)
  chain : ∀ tier left, Sound fuel 0 (chain fuel tier left) (DerivesChain tier left)
  factor : Sound fuel 2 (factor fuel) (Derives .negation)
  suffixes : ∀ head, Sound fuel 0 (suffixes fuel head) (DerivesSuffixes head)
  primary : Sound fuel 1 (primary fuel) (Derives .primary)
  sequence : ∀ close, Sound fuel 12 (sequence fuel close) DerivesItems
  entries : Sound fuel 1 (entries fuel) DerivesEntries
  key : Sound fuel 0 (key fuel) DerivesKey
  routine : ∀ named, Sound fuel 0 (routine fuel named)
    fun ts r => DerivesRoutine ts r ∧ r.name.isSome = named
  body : Sound fuel 14 (body fuel) DerivesBody
  statement : Sound fuel 13 (statement fuel) DerivesStatement
  expressionStatement : Sound fuel 12 (expressionStatement fuel) DerivesStatement
  assignment : Sound fuel 12 (assignment fuel) DerivesAssignment
  clause : ∀ keyword, Sound fuel 0 (clause fuel keyword) (DerivesClause keyword)
  countLoop : ∀ start : Token, start.kind = .keyword .para → Sound fuel 0 (countLoop fuel start)
    fun ts s => DerivesStatement (start :: ts) s
  eachLoop : ∀ start cada : Token, start.kind = .keyword .para → cada.kind = .keyword .cada →
    Sound fuel 0 (eachLoop fuel start) fun ts s => DerivesStatement (start :: cada :: ts) s
  conditional : ∀ start : Token, start.kind = .keyword .se → Sound fuel 13 (conditional fuel start)
    fun ts s => DerivesStatement (start :: ts) s
  branches : Sound fuel 12 (branches fuel) fun ts bs => DerivesBranches ts bs.1 bs.2
  returnValues : ∀ start : Token, start.kind = .keyword .retorna →
    Sound fuel 12 (returnValues fuel start) fun ts s => DerivesStatement (start :: ts) s
  moreValues : Sound fuel 0 (moreValues fuel) DerivesMoreValues

namespace SoundGroup

variable {fuel : Nat} (ih : SoundGroup fuel)

include ih

theorem expression_succ : Sound (fuel + 1) 11 (Parse.expression (fuel + 1)) (Derives .whole) := by
  intro ts hts
  rw [Parse.expression]
  exact (Uses.refl ts).run hts (ih.operation .logical) (by simp [operandRank])
    fun e used rest hu he => ⟨used, hu, he⟩

theorem operation_succ (tier : Tier) : Sound (fuel + 1) (operandRank tier + 1)
    (Parse.operation (fuel + 1) tier) (Derives (.tier tier)) := by
  intro ts hts
  rw [Parse.operation]
  refine (Uses.refl ts).andThen hts (ih.operand tier) (by simp) fun left ls mid hu hleft => ?_
  refine hu.run hts (ih.chain tier left) (by simp) fun e more rest hu he => ?_
  exact ⟨_, hu, he ls (.operand hleft)⟩

theorem operand_succ (tier : Tier) : Sound (fuel + 1) (operandRank tier)
    (Parse.operand (fuel + 1) tier) (Derives tier.operand) := by
  intro ts hts
  cases tier with
  | logical =>
    rw [Parse.operand]
    exact (Uses.refl ts).run hts (ih.operation .comparison) (by simp [operandRank])
      fun e used rest hu he => ⟨used, hu, he⟩
  | comparison =>
    rw [Parse.operand]
    exact (Uses.refl ts).run hts (ih.operation .additive) (by simp [operandRank])
      fun e used rest hu he => ⟨used, hu, he⟩
  | additive =>
    rw [Parse.operand]
    exact (Uses.refl ts).run hts (ih.operation .multiplicative) (by simp [operandRank])
      fun e used rest hu he => ⟨used, hu, he⟩
  | multiplicative =>
    rw [Parse.operand]
    exact (Uses.refl ts).run hts ih.factor (by simp [operandRank])
      fun e used rest hu he => ⟨used, hu, he⟩

theorem chain_succ (tier : Tier) (left : Expression) : Sound (fuel + 1) 0
    (Parse.chain (fuel + 1) tier left) (DerivesChain tier left) := by
  intro ts hts
  rw [Parse.chain, answers_bind, answers_peek]
  split
  · exact ⟨[], Uses.refl ts, fun ls hleft => by simpa using hleft⟩
  · rename_i op hop
    obtain ⟨rfl, hkind⟩ := operator?_eq_some hop
    refine (Uses.refl ts).advance hts (by rw [hkind]; cases op <;> simp [Operator.kind])
      fun mid hu => ?_
    refine hu.andThen hts (ih.operand op.tier) (by cases op <;> simp [operandRank, Operator.tier])
      fun right rs mid hu hright => ?_
    refine hu.run hts (ih.chain op.tier _) (by simp) fun e more rest hu he => ⟨_, hu, ?_⟩
    intro ls hleft
    simpa using he _ (.binary hleft hkind hright)

theorem factor_succ : Sound (fuel + 1) 2 (Parse.factor (fuel + 1)) (Derives .negation) := by
  intro ts hts
  rw [Parse.factor, answers_bind, answers_peek]
  split_ifs with h
  · refine (Uses.refl ts).advance hts (by rcases h with h | h <;> simp [h]) fun mid hu => ?_
    refine hu.andThen hts ih.factor (by simp) fun e used rest hu he => ?_
    exact ⟨_, hu, .negate h he⟩
  · refine (Uses.refl ts).andThen hts ih.primary (by simp) fun head hs mid hu hhead => ?_
    refine hu.run hts (ih.suffixes head) (by simp) fun e more rest hu he => ?_
    exact ⟨_, hu, .suffixed (he hs (.primary hhead))⟩

theorem suffixes_succ (head : Expression) : Sound (fuel + 1) 0
    (Parse.suffixes (fuel + 1) head) (DerivesSuffixes head) := by
  intro ts hts
  rw [Parse.suffixes, answers_bind, answers_peek]
  split
  · rename_i h
    refine (Uses.refl ts).advance hts (by simp [h]) fun mid hu => ?_
    refine hu.andThen hts (ih.sequence _) (by simp) fun arguments as mid hu has => ?_
    refine hu.expect hts (by simp) fun close mid hu hclose => ?_
    refine hu.run hts (ih.suffixes _) (by simp) fun e more rest hu he => ⟨_, hu, ?_⟩
    intro hs hhead
    simpa using he _ (.call hhead h has hclose)
  · rename_i h
    refine (Uses.refl ts).advance hts (by simp [h]) fun mid hu => ?_
    refine hu.ident hts fun t name mid hu ht => ?_
    refine hu.run hts (ih.suffixes _) (by simp) fun e more rest hu he => ⟨_, hu, ?_⟩
    intro hs hhead
    simpa using he _ (.field hhead h ht)
  · rename_i h
    refine (Uses.refl ts).advance hts (by simp [h]) fun mid hu => ?_
    refine hu.andThen hts ih.expression (by simp) fun key ks mid hu hkey => ?_
    refine hu.expect hts (by simp) fun close mid hu hclose => ?_
    refine hu.run hts (ih.suffixes _) (by simp) fun e more rest hu he => ⟨_, hu, ?_⟩
    intro hs hhead
    simpa using he _ (.index hhead h hkey hclose)
  · exact ⟨[], Uses.refl ts, fun hs hhead => by simpa using hhead⟩

theorem primary_succ : Sound (fuel + 1) 1 (Parse.primary (fuel + 1)) (Derives .primary) := by
  intro ts hts
  rw [Parse.primary, answers_bind, answers_peek]
  split
  · rename_i a ha
    have hleaf := atom?_eq_some ha
    refine (Uses.refl ts).advance hts (by cases hleaf <;> simp [*]) fun rest hu => ?_
    exact ⟨_, hu, .leaf hleaf⟩
  · split
    · rename_i h
      refine (Uses.refl ts).advance hts (by simp [h]) fun mid hu => ?_
      refine hu.andThen hts ih.expression (by simp) fun e es mid hu he => ?_
      refine hu.expect hts (by simp) fun close rest hu hclose => ?_
      exact ⟨_, hu, by simpa using .parens h he hclose⟩
    · rename_i h
      refine (Uses.refl ts).advance hts (by simp [h]) fun mid hu => ?_
      refine hu.andThen hts (ih.sequence _) (by simp) fun items is mid hu hitems => ?_
      refine hu.expect hts (by simp) fun close rest hu hclose => ?_
      exact ⟨_, hu, by simpa using .array h hitems hclose⟩
    · rename_i h
      refine (Uses.refl ts).advance hts (by simp [h]) fun mid hu => ?_
      refine hu.andThen hts ih.entries (by simp) fun entries es mid hu hentries => ?_
      refine hu.expect hts (by simp) fun close rest hu hclose => ?_
      exact ⟨_, hu, by simpa using .dictionary h hentries hclose⟩
    · refine (Uses.refl ts).andThen hts (ih.routine false) (by simp) fun r rs rest hu hr => ?_
      exact ⟨_, hu, .function hr.1 (by simpa using hr.2)⟩
    · simp

theorem sequence_succ (close : Kind) : Sound (fuel + 1) 12 (Parse.sequence (fuel + 1) close)
    DerivesItems := by
  intro ts hts
  rw [Parse.sequence, answers_bind, answers_peek]
  dsimp only
  split_ifs with h
  · exact ⟨[], Uses.refl ts, .nil⟩
  · refine (Uses.refl ts).andThen hts ih.expression (by simp) fun item is mid hu hitem => ?_
    refine hu.comma hts fun _ comma mid hu hcomma => ?_
    have hused := List.length_pos_iff.mpr hitem.ne_nil
    refine hu.andThen hts (ih.sequence close) (by simp; omega) fun items more rest hu hmore => ?_
    exact ⟨_, hu, by simpa using .cons hitem hcomma hmore⟩

theorem entries_succ : Sound (fuel + 1) 1 (Parse.entries (fuel + 1)) DerivesEntries := by
  intro ts hts
  rw [Parse.entries, answers_bind, answers_peek]
  split_ifs with h
  · exact ⟨[], Uses.refl ts, .nil⟩
  · refine (Uses.refl ts).andThen hts ih.key (by simp) fun key ks mid hu hkey => ?_
    refine hu.expect hts (by simp) fun equal mid hu hequal => ?_
    refine hu.andThen hts ih.expression (by simp; omega) fun value vs mid hu hvalue => ?_
    refine hu.comma hts fun _ comma mid hu hcomma => ?_
    refine hu.andThen hts ih.entries (by simp) fun entries more rest hu hmore => ?_
    exact ⟨_, hu, by simpa using .cons hkey hequal hvalue hcomma hmore⟩

theorem key_succ : Sound (fuel + 1) 0 (Parse.key (fuel + 1)) DerivesKey := by
  intro ts hts
  rw [Parse.key]
  refine (Uses.refl ts).accept hts (by simp) (fun opening mid hu hopening => ?_) fun _ => ?_
  · simp only [if_true, answers_bind, answers_peek, answers_peekSecond]
    split_ifs with h
    · refine hu.ident hts fun t name mid hu ht => ?_
      rw [answers_bind, answers_pure]
      refine hu.expect hts (by simp) fun closing rest hu hclosing => ?_
      exact ⟨_, hu, .bracketed hopening ht hclosing⟩
    · -- A name alone would have been followed by the bracket that closes the key.
      refine hu.andThen hts ih.expression (by simp) fun e es mid' hu' he => ?_
      rw [answers_bind, answers_pure]
      refine hu'.expect hts (by simp) fun closing rest hu'' hclosing => ?_
      have single : ∀ t, es = [t] → t.kind ≠ .identifier := by
        rintro t rfl hname
        have hahead : mid.ahead = t :: closing :: rest.ahead := by
          have := hu.ahead.symm.trans hu''.ahead
          simpa using this
        exact h (by simp [Tokens.peek, Tokens.peekSecond, hahead, hname, hclosing])
      exact ⟨_, hu'', by simpa using .computed hopening he single hclosing⟩
  · simp only [Bool.false_eq_true, if_false, answers_bind, answers_peek]
    split_ifs with h
    · refine (Uses.refl ts).ident hts fun t name rest hu ht => ?_
      exact ⟨_, hu, .name ht⟩
    · simp

theorem routine_succ (named : Bool) : Sound (fuel + 1) 0 (Parse.routine (fuel + 1) named)
    fun ts r => DerivesRoutine ts r ∧ r.name.isSome = named := by
  intro ts hts
  rw [Parse.routine]
  refine (Uses.refl ts).expect hts (by simp) fun word mid hu hword => ?_
  cases named with
  | true =>
    simp only [if_true]
    refine hu.ident hts fun t name mid hu ht => ?_
    rw [answers_bind, answers_pure]
    refine hu.expect hts (by simp) fun opening mid hu hopening => ?_
    refine hu.andThen hts (parameters_sound fuel) (by simp) fun parameters ps mid hu hps => ?_
    refine hu.expect hts (by simp) fun closing mid hu hclosing => ?_
    refine hu.andThen hts ih.body (by simp; omega) fun body bs mid hu hbs => ?_
    refine hu.expect hts (by simp) fun fim rest hu hfim => ?_
    exact ⟨_, hu, by simpa using .named hword ht hopening hps hclosing hbs hfim, rfl⟩
  | false =>
    simp only [Bool.false_eq_true, if_false]
    rw [answers_bind, answers_pure]
    refine hu.expect hts (by simp) fun opening mid hu hopening => ?_
    refine hu.andThen hts (parameters_sound fuel) (by simp) fun parameters ps mid hu hps => ?_
    refine hu.expect hts (by simp) fun closing mid hu hclosing => ?_
    refine hu.andThen hts ih.body (by simp; omega) fun body bs mid hu hbs => ?_
    refine hu.expect hts (by simp) fun fim rest hu hfim => ?_
    exact ⟨_, hu, by simpa using .anonymous hword hopening hps hclosing hbs hfim, rfl⟩

theorem body_succ : Sound (fuel + 1) 14 (Parse.body (fuel + 1)) DerivesBody := by
  intro ts hts
  rw [Parse.body, answers_bind, answers_peek]
  split_ifs with h
  · exact ⟨[], Uses.refl ts, .nil⟩
  · refine (Uses.refl ts).andThen hts ih.statement (by simp) fun s ss mid hu hs => ?_
    have hused := List.length_pos_iff.mpr hs.ne_nil
    refine hu.andThen hts ih.body (by simp; omega) fun body more rest hu hmore => ?_
    exact ⟨_, hu, .cons hs hmore⟩

theorem expressionStatement_succ : Sound (fuel + 1) 12 (Parse.expressionStatement (fuel + 1))
    DerivesStatement := by
  intro ts hts
  rw [Parse.expressionStatement]
  refine (Uses.refl ts).andThen hts ih.expression (by simp) fun left ls mid hu hleft => ?_
  refine hu.accept hts (by simp) (fun equal mid hu hequal => ?_) fun _ => ?_
  · refine hu.andThen hts ih.expression (by simp) fun value vs mid hu hvalue => ?_
    rw [answers_bind]
    refine answers_target fun target htarget => ?_
    exact ⟨_, hu, .assignment (by simpa using .mk hleft htarget hequal hvalue)⟩
  · exact ⟨_, hu, .expression hleft⟩

theorem assignment_succ : Sound (fuel + 1) 12 (Parse.assignment (fuel + 1))
    DerivesAssignment := by
  intro ts hts
  rw [Parse.assignment]
  refine (Uses.refl ts).andThen hts ih.expression (by simp) fun left ls mid hu hleft => ?_
  refine hu.expect hts (by simp) fun equal mid hu hequal => ?_
  refine hu.andThen hts ih.expression (by simp) fun value vs mid hu hvalue => ?_
  rw [answers_bind]
  refine answers_target fun target htarget => ?_
  exact ⟨_, hu, by simpa using .mk hleft htarget hequal hvalue⟩

theorem clause_succ (keyword : Keyword) : Sound (fuel + 1) 0 (Parse.clause (fuel + 1) keyword)
    (DerivesClause keyword) := by
  intro ts hts
  rw [Parse.clause]
  refine (Uses.refl ts).accept hts (by simp) (fun word mid hu hword => ?_) fun _ => ?_
  · refine hu.andThen hts ih.expression (by simp) fun e es rest hu he => ?_
    exact ⟨_, hu, .given hword he⟩
  · exact ⟨[], Uses.refl ts, .missing keyword⟩

theorem countLoop_succ (start : Token) (hstart : start.kind = .keyword .para) :
    Sound (fuel + 1) 0 (Parse.countLoop (fuel + 1) start)
      fun ts s => DerivesStatement (start :: ts) s := by
  intro ts hts
  rw [Parse.countLoop]
  refine (Uses.refl ts).ident hts fun t counter mid hu ht => ?_
  refine hu.andThen hts (ih.clause .de) (by simp) fun first fs mid hu hfirst => ?_
  refine hu.andThen hts (ih.clause .ate) (by simp) fun limit ls mid hu hlimit => ?_
  have tail : ∀ (step : Option Assignment) (ss : List Token) (mid : Tokens),
      ts.Uses ([] ++ [t] ++ fs ++ ls ++ ss) mid → DerivesStep ss step →
      (do
        let _ ← expect (.keyword .faca)
        let body ← Parse.body fuel
        let close ← expect (.keyword .fim)
        pure (Statement.countLoop counter first limit step body (start.span.merge close.span))
        : Parse Statement).Answers mid
        (fun s rest => ∃ used, ts.Uses used rest ∧ DerivesStatement (start :: used) s) True
        (fuel + 1 ≤ 16 * ts.ahead.length + 0) := by
    intro step ss mid hu hss
    refine hu.expect hts (by simp) fun faca mid hu hfaca => ?_
    refine hu.andThen hts ih.body (by simp; omega) fun body bs mid hu hbs => ?_
    refine hu.expect hts (by simp) fun fim rest hu hfim => ?_
    exact ⟨_, hu, by simpa using .countLoop hstart ht hfirst hlimit hss hfaca hbs hfim⟩
  refine hu.accept hts (by simp) (fun word mid hu hword => ?_) fun _ => ?_
  · simp only [if_true]
    refine hu.andThen hts ih.assignment (by simp; omega) fun a as mid hu has => ?_
    rw [answers_bind, answers_pure]
    exact tail (some a) (word :: as) mid (by simpa using hu) (.given hword has)
  · simp only [Bool.false_eq_true, if_false]
    rw [answers_bind, answers_pure]
    exact tail none [] mid (by simpa using hu) .missing

theorem eachLoop_succ (start cada : Token) (hstart : start.kind = .keyword .para)
    (hcada : cada.kind = .keyword .cada) : Sound (fuel + 1) 0 (Parse.eachLoop (fuel + 1) start)
      fun ts s => DerivesStatement (start :: cada :: ts) s := by
  intro ts hts
  rw [Parse.eachLoop]
  refine (Uses.refl ts).ident hts fun t key mid hu ht => ?_
  refine hu.expect hts (by simp) fun comma mid hu hcomma => ?_
  refine hu.ident hts fun u value mid hu hvalue => ?_
  refine hu.expect hts (by simp) fun em mid hu hem => ?_
  refine hu.andThen hts ih.expression (by simp) fun collection cs mid hu hcollection => ?_
  refine hu.expect hts (by simp) fun faca mid hu hfaca => ?_
  refine hu.andThen hts ih.body (by simp; omega) fun body bs mid hu hbody => ?_
  refine hu.expect hts (by simp) fun fim rest hu hfim => ?_
  exact ⟨_, hu, by
    simpa using .eachLoop hstart hcada ht hcomma hvalue hem hcollection hfaca hbody hfim⟩

theorem conditional_succ (start : Token) (hstart : start.kind = .keyword .se) :
    Sound (fuel + 1) 13 (Parse.conditional (fuel + 1) start)
      fun ts s => DerivesStatement (start :: ts) s := by
  intro ts hts
  rw [Parse.conditional]
  refine (Uses.refl ts).andThen hts ih.branches (by simp) fun ⟨branches, last⟩ bs mid hu hbs => ?_
  refine hu.accept hts (by simp) (fun senao mid hu hsenao => ?_) fun _ => ?_
  · refine hu.expect hts (by simp) fun faca mid hu hfaca => ?_
    refine hu.andThen hts ih.body (by simp; omega) fun otherwise os mid hu hos => ?_
    refine hu.expect hts (by simp) fun fim rest hu hfim => ?_
    exact ⟨_, hu, by simpa using .conditionalElse hstart hbs hsenao hfaca hos hfim⟩
  · exact ⟨_, hu, .conditional hstart hbs⟩

theorem branches_succ : Sound (fuel + 1) 12 (Parse.branches (fuel + 1))
    fun ts bs => DerivesBranches ts bs.1 bs.2 := by
  intro ts hts
  rw [Parse.branches]
  refine (Uses.refl ts).andThen hts ih.expression (by simp) fun condition cs mid hu hcs => ?_
  refine hu.expect hts (by simp) fun faca mid hu hfaca => ?_
  refine hu.andThen hts ih.body (by simp; omega) fun body bs mid hu hbs => ?_
  refine hu.expect hts (by simp) fun fim mid hu hfim => ?_
  refine hu.accept hts (by simp) (fun caso mid hu hcaso => ?_) fun _ => ?_
  · refine hu.andThen hts ih.branches (by simp) fun ⟨more, last⟩ ms rest hu hms => ?_
    exact ⟨_, hu, by simpa using .more hcs hfaca hbs hfim hcaso hms⟩
  · exact ⟨_, hu, by simpa using .single hcs hfaca hbs hfim⟩

theorem returnValues_succ (start : Token) (hstart : start.kind = .keyword .retorna) :
    Sound (fuel + 1) 12 (Parse.returnValues (fuel + 1) start)
      fun ts s => DerivesStatement (start :: ts) s := by
  intro ts hts
  rw [Parse.returnValues, answers_bind]
  refine answers_optional ?_ ?_
  · refine (Uses.refl ts).run hts ih.expression (by simp) fun first fs mid hu hfirst => ?_
    refine hu.andThen hts ih.moreValues (by simp) fun more ms rest hu hms => ?_
    exact ⟨_, hu, .returnValues hstart hfirst hms⟩
  · exact ⟨[], Uses.refl ts, .returnNothing hstart⟩

theorem moreValues_succ : Sound (fuel + 1) 0 (Parse.moreValues (fuel + 1)) DerivesMoreValues := by
  intro ts hts
  rw [Parse.moreValues]
  refine (Uses.refl ts).accept hts (by simp) (fun comma mid hu hcomma => ?_) fun _ => ?_
  · refine hu.andThen hts ih.expression (by simp) fun e es mid hu he => ?_
    refine hu.andThen hts ih.moreValues (by simp) fun more ms rest hu hms => ?_
    exact ⟨_, hu, by simpa using .cons hcomma he hms⟩
  · exact ⟨[], Uses.refl ts, .nil⟩

theorem statement_succ : Sound (fuel + 1) 13 (Parse.statement (fuel + 1)) DerivesStatement := by
  intro ts hts
  rw [Parse.statement, answers_bind, answers_peek]
  split
  · rename_i h
    refine (Uses.refl ts).advance hts (by simp [h]) fun mid hu => ?_
    refine hu.ident hts fun t name mid hu ht => ?_
    refine hu.expect hts (by simp) fun equal mid hu hequal => ?_
    refine hu.andThen hts ih.expression (by simp) fun value vs rest hu hvalue => ?_
    exact ⟨_, hu, .declaration h ht hequal hvalue⟩
  · rename_i h
    refine (Uses.refl ts).advance hts (by simp [h]) fun mid hu => ?_
    refine hu.andThen hts ih.body (by simp) fun body bs mid hu hbs => ?_
    refine hu.expect hts (by simp) fun fim rest hu hfim => ?_
    exact ⟨_, hu, by simpa using .block h hbs hfim⟩
  · rename_i h
    refine (Uses.refl ts).advance hts (by simp [h]) fun mid hu => ?_
    refine hu.andThen hts ih.expression (by simp) fun condition cs mid hu hcs => ?_
    refine hu.expect hts (by simp) fun faca mid hu hfaca => ?_
    refine hu.andThen hts ih.body (by simp; omega) fun body bs mid hu hbs => ?_
    refine hu.expect hts (by simp) fun fim rest hu hfim => ?_
    exact ⟨_, hu, by simpa using .whileLoop h hcs hfaca hbs hfim⟩
  · rename_i h
    refine (Uses.refl ts).advance hts (by simp [h]) fun mid hu => ?_
    refine hu.accept hts (by simp) (fun cada mid hu hcada => ?_) fun _ => ?_
    · refine hu.run hts (ih.eachLoop ts.peek cada h hcada) (by simp) fun s ss rest hu hs => ?_
      exact ⟨_, hu, hs⟩
    · refine hu.run hts (ih.countLoop ts.peek h) (by simp) fun s ss rest hu hs => ?_
      exact ⟨_, hu, hs⟩
  · rename_i h
    refine (Uses.refl ts).advance hts (by simp [h]) fun mid hu => ?_
    refine hu.run hts (ih.conditional ts.peek h) (by simp) fun s ss rest hu hs => ?_
    exact ⟨_, hu, hs⟩
  · rename_i h
    refine (Uses.refl ts).advance hts (by simp [h]) fun rest hu => ?_
    exact ⟨_, hu, .breakLoop h⟩
  · rename_i h
    refine (Uses.refl ts).advance hts (by simp [h]) fun rest hu => ?_
    exact ⟨_, hu, .continueLoop h⟩
  · rename_i h
    refine (Uses.refl ts).advance hts (by simp [h]) fun mid hu => ?_
    refine hu.run hts (ih.returnValues ts.peek h) (by simp) fun s ss rest hu hs => ?_
    exact ⟨_, hu, hs⟩
  · rw [answers_bind, answers_peekSecond]
    split_ifs with hname
    · refine (Uses.refl ts).andThen hts (ih.routine true) (by simp) fun r rs rest hu hr => ?_
      obtain ⟨name, hname⟩ := Option.isSome_iff_exists.mp hr.2
      exact ⟨_, hu, .function hr.1 hname⟩
    · exact (Uses.refl ts).run hts ih.expressionStatement (by simp)
        fun s used rest hu hs => ⟨used, hu, hs⟩
  · exact (Uses.refl ts).run hts ih.expressionStatement (by simp)
      fun s used rest hu hs => ⟨used, hu, hs⟩

theorem succ : SoundGroup (fuel + 1) where
  expression := ih.expression_succ
  operation := ih.operation_succ
  operand := ih.operand_succ
  chain := ih.chain_succ
  factor := ih.factor_succ
  suffixes := ih.suffixes_succ
  primary := ih.primary_succ
  sequence := ih.sequence_succ
  entries := ih.entries_succ
  key := ih.key_succ
  routine := ih.routine_succ
  body := ih.body_succ
  statement := ih.statement_succ
  expressionStatement := ih.expressionStatement_succ
  assignment := ih.assignment_succ
  clause := ih.clause_succ
  countLoop := ih.countLoop_succ
  eachLoop := ih.eachLoop_succ
  conditional := ih.conditional_succ
  branches := ih.branches_succ
  returnValues := ih.returnValues_succ
  moreValues := ih.moreValues_succ

omit ih in
theorem zero : SoundGroup 0 := by
  constructor
  all_goals
    intros
    intro ts _
    exact Nat.zero_le _

end SoundGroup

theorem SoundGroup.all (fuel : Nat) : SoundGroup fuel := by
  induction fuel with
  | zero => exact .zero
  | succ fuel ih => exact ih.succ

/-! ### whole sources -/

/-- A script is derived from all tokens ahead. -/
theorem statements_answers (fuel : Nat) (ts : Tokens) (hts : ts.Ended) :
    (statements fuel).Answers ts (fun ss _ => DerivesBody ts.ahead ss) True
      (fuel ≤ 16 * ts.ahead.length + 14) := by
  induction fuel generalizing ts with
  | zero => simp [statements]
  | succ fuel ih =>
    rw [statements, answers_bind, answers_peek]
    split_ifs with h
    · rw [answers_pure, hts.eq_nil h]
      exact .nil
    · refine (Uses.refl ts).andThen hts (SoundGroup.all fuel).statement (by simp)
        fun s ss mid hu hs => ?_
      have hused := List.length_pos_iff.mpr hs.ne_nil
      have hlength := hu.length
      rw [List.nil_append] at hlength
      rw [answers_bind]
      refine (ih mid (hu.ended hts)).mono (fun rest left hrest => ?_) (by omega)
      rw [answers_pure, hu.ahead, List.nil_append]
      exact .cons hs hrest

/-- An expression and nothing after it is derived from all tokens ahead. -/
theorem expressionOnly_answers (fuel : Nat) (ts : Tokens) (hts : ts.Ended) :
    (expressionOnly fuel).Answers ts (fun e _ => Derives .whole ts.ahead e) True
      (fuel ≤ 16 * ts.ahead.length + 11) := by
  rw [expressionOnly, answers_bind]
  refine ((SoundGroup.all fuel).expression ts hts).mono ?_ id
  rintro e mid ⟨used, hu, he⟩
  rw [answers_bind, answers_expect]
  refine ⟨fun hend => ?_, fun _ => trivial⟩
  rw [answers_pure, hu.ahead, (hu.ended hts).eq_nil hend, List.append_nil]
  exact he

end Parse

/-- The tokens of a source are ended. -/
theorem TokensOf.ended {source : String} {ts : List Token} {finish : Token}
    (h : TokensOf source ts finish) : (Tokens.mk ts finish).Ended :=
  ⟨h.finish, h.unfinished⟩

/-- A parser is run on the tokens of the source. -/
theorem TokensOf.run {α : Type} {source : String} {ts : List Token} {finish : Token}
    (h : TokensOf source ts finish) (p : Nat → Parse α) :
    ((Parser.ofText source).run p).1 =
      Parser.outcome ⟨ts, finish⟩ (p (Tokens.mk ts finish).fuel ⟨ts, finish⟩) := by
  have htokens : (Parser.ofText source).lexer.tokens.1 = .ok (ts ++ [finish]) :=
    (Lexer.tokensWithin_eq_ok_iff ..).mpr h.items
  have hof : Tokens.ofList (ts ++ [finish]) = ⟨ts, finish⟩ := by simp [Tokens.ofList]
  rw [← hof, Parser.run]
  split
  · rename_i hlist
    rw [hlist] at htokens
    cases htokens
  · rename_i hlist
    rw [hlist] at htokens
    cases htokens
    rfl

/-- A parser that succeeds on a source has succeeded on the tokens of the source. -/
theorem Parser.run_eq_ok {α : Type} {source : String} {p : Nat → Parse α} {a : α}
    (h : ((Parser.ofText source).run p).1 = .ok a) : ∃ ts finish rest, TokensOf source ts finish ∧
      p (Tokens.mk ts finish).fuel ⟨ts, finish⟩ = .ok a rest := by
  cases hlist : (Lexer.ofText source).tokens.1 with
  | error e =>
    have hlexer : (Parser.ofText source).lexer.tokens.1 = .error e := hlist
    simp only [Parser.run] at h
    split at h
    · cases h
    · simp_all
  | ok list =>
    obtain ⟨ts, finish, rfl, hts⟩ := TokensOf.of_tokens hlist
    rw [hts.run] at h
    cases hp : p (Tokens.mk ts finish).fuel ⟨ts, finish⟩ with
    | ok b rest =>
      rw [hp] at h
      cases h
      exact ⟨ts, finish, rest, hts, hp⟩
    | fail e rest => rw [hp] at h; cases h
    | exhausted => rw [hp] at h; cases h

/-- **The parser is sound for the grammar.** If a source is a script or an expression, its tokens
before the end, all of them in order, are a derivation of the statements or of the expression. -/
theorem derives_of_source (source : String) :
    (∀ program, Program.ofText source = .ok program →
      ∃ ts finish, TokensOf source ts finish ∧ DerivesBody ts program.statements) ∧
    (∀ e, Expression.ofText source = .ok e →
      ∃ ts finish, TokensOf source ts finish ∧ Derives .whole ts e) := by
  constructor
  · intro program h
    obtain ⟨statements, hrun, rfl⟩ : ∃ statements,
        ((Parser.ofText source).run Parse.statements).1 = .ok statements ∧
          (⟨statements, (Parser.ofText source).whole⟩ : Program) = program := by
      unfold Program.ofText Parser.program at h
      cases hrun : ((Parser.ofText source).run Parse.statements).1 with
      | error e => simp [hrun, Except.map] at h
      | ok statements => exact ⟨statements, rfl, by simpa [hrun, Except.map] using h⟩
    obtain ⟨ts, finish, rest, hts, hp⟩ := Parser.run_eq_ok hrun
    have := Parse.statements_answers (Tokens.mk ts finish).fuel _ hts.ended
    rw [Parse.Answers, hp] at this
    exact ⟨ts, finish, hts, this⟩
  · intro e h
    obtain ⟨ts, finish, rest, hts, hp⟩ := Parser.run_eq_ok h
    have := Parse.expressionOnly_answers (Tokens.mk ts finish).fuel _ hts.ended
    rw [Parse.Answers, hp] at this
    exact ⟨ts, finish, hts, this⟩

/-- An expression with a property, and a call without commas. -/
theorem derives_of_source_call : ∃ e,
    (Program.ofText "v.x - f(a b)" = .ok ⟨[.expression e], ⟨0, 12⟩⟩ ∧
      ∃ ts finish, TokensOf "v.x - f(a b)" ts finish ∧ DerivesBody ts [.expression e]) ∧
    (Expression.ofText "v.x - f(a b)" = .ok e ∧
      ∃ ts finish, TokensOf "v.x - f(a b)" ts finish ∧ Derives .whole ts e) := by
  have htokens : TokensOf "v.x - f(a b)"
      [⟨.identifier, "v", ⟨0, 1⟩, 1⟩, ⟨.symbol .dot, ".", ⟨1, 1⟩, 1⟩,
        ⟨.identifier, "x", ⟨2, 1⟩, 1⟩, ⟨.symbol .minus, "-", ⟨4, 1⟩, 1⟩,
        ⟨.identifier, "f", ⟨6, 1⟩, 1⟩, ⟨.symbol .leftParen, "(", ⟨7, 1⟩, 1⟩,
        ⟨.identifier, "a", ⟨8, 1⟩, 1⟩, ⟨.identifier, "b", ⟨10, 1⟩, 1⟩,
        ⟨.symbol .rightParen, ")", ⟨11, 1⟩, 1⟩] ⟨.eof, "", ⟨12, 0⟩, 1⟩ :=
    ⟨by decide +kernel, rfl, by decide⟩
  let e : Expression := .binary .subtract
    (.property (.atom (.identifier ⟨"v", ⟨0, 1⟩⟩) ⟨0, 1⟩) (.atom (.string "x") ⟨2, 1⟩) ⟨0, 3⟩)
    (.call (.atom (.identifier ⟨"f", ⟨6, 1⟩⟩) ⟨6, 1⟩)
      [.atom (.identifier ⟨"a", ⟨8, 1⟩⟩) ⟨8, 1⟩, .atom (.identifier ⟨"b", ⟨10, 1⟩⟩) ⟨10, 1⟩]
      ⟨6, 6⟩) ⟨0, 12⟩
  have hprogram : Program.ofText "v.x - f(a b)" = .ok ⟨[.expression e], ⟨0, 12⟩⟩ := by
    rw [Program.ofText, Parser.program]
    dsimp only
    rw [htokens.run]
    rfl
  have hexpression : Expression.ofText "v.x - f(a b)" = .ok e := by
    rw [Expression.ofText, Parser.expression, htokens.run]
    rfl
  exact ⟨e, ⟨hprogram, (derives_of_source _).1 _ hprogram⟩,
    hexpression, (derives_of_source _).2 _ hexpression⟩

end Roteiro
