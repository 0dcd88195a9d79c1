import Roteiro.Proofs.Parser.Derivation
import Roteiro.Proofs.Token.Spelling
import Roteiro.Tree.Printer

/-!
Expressions whose text can be read again, and the faces of the tokens that they are written with.
The text of such an expression spells its faces (`Expression.spells`): no token runs into the next
one.
-/

namespace Roteiro

open Decimal

/-! ### faces -/

def Operator.face (op : Operator) : Face :=
  (op.kind, op.text)

def Atom.face : Atom → Face
  | .null => (.keyword .nulo, "nulo")
  | .number v => (.number, Layout.plain.text v)
  | .string v => (.string, "\"" ++ v ++ "\"")
  | .boolean v => (.keyword (if v then .verdadeiro else .falso), boolText v)
  | .identifier name => (.identifier, name.text)

mutual

/-- The faces of an expression without functions. -/
def Expression.faces : Expression → List Face
  | .atom a _ => [a.face]
  | .array items _ =>
    (.symbol .leftBracket, "[") :: (Expression.facesAll items ++ [(.symbol .rightBracket, "]")])
  | .dictionary entries _ =>
    (.symbol .leftBrace, "\x7b") :: (Entry.facesAll entries ++ [(.symbol .rightBrace, "\x7d")])
  | .function _ => []
  | .negate operand _ => (.keyword .negar, "negar") :: operand.faces
  | .binary op left right _ =>
    (.symbol .leftParen, "(") ::
      (left.faces ++ op.face :: (right.faces ++ [(.symbol .rightParen, ")")]))
  | .call callee arguments _ =>
    callee.faces ++ (.symbol .leftParen, "(") ::
      (Expression.facesAll arguments ++ [(.symbol .rightParen, ")")])
  | .property object (.atom (.string name) _) _ =>
    object.faces ++ [(.symbol .dot, "."), (.identifier, name)]
  | .property object key _ =>
    object.faces ++ (.symbol .leftBracket, "[") :: (key.faces ++ [(.symbol .rightBracket, "]")])

/-- The faces of expressions with commas between them. -/
def Expression.facesAll : List Expression → List Face
  | [] => []
  | e :: es => e.faces ++ Expression.facesAfter es

/-- The faces of the expressions after the first one. -/
def Expression.facesAfter : List Expression → List Face
  | [] => []
  | e :: es => (.symbol .comma, ",") :: (e.faces ++ Expression.facesAfter es)

def Key.faces : Key → List Face
  | .name name => [(.identifier, name.text)]
  | .computed key =>
    (.symbol .leftBracket, "[") :: (key.faces ++ [(.symbol .rightBracket, "]")])

def Entry.faces : Entry → List Face
  | .mk key value => key.faces ++ (.symbol .equal, "=") :: value.faces

/-- The faces of entries with commas between them. -/
def Entry.facesAll : List Entry → List Face
  | [] => []
  | e :: es => e.faces ++ Entry.facesAfter es

def Entry.facesAfter : List Entry → List Face
  | [] => []
  | e :: es => (.symbol .comma, ",") :: (e.faces ++ Entry.facesAfter es)

end

/-! ### texts that can be read again -/

/-- A number that is finite and not negative, and that its text reads back to. -/
structure IsWritableNumber (v : Float) : Prop where
  finite : ∃ m q, decode v = .finite m q
  positive : isNegative v = false
  reads : numberOfLexeme (Layout.plain.text v) = v

def Atom.Writable : Atom → Prop
  | .number v => IsWritableNumber v
  | .string v => '"' ∉ v.toList
  | .identifier name => IsIdentifier name.text
  | .null => True
  | .boolean _ => True

/-- A negation is written without parentheses, so nothing can be appended to it. -/
def Expression.IsNegation : Expression → Prop
  | .negate _ _ => True
  | _ => False

def Expression.IsName : Expression → Prop
  | .atom (.identifier _) _ => True
  | _ => False

mutual

/-- An expression whose text reads back to it: it has no functions, its names are identifiers, its
strings have no quotes and its numbers can be written; nothing is called or looked up in a negation,
the strings that are keys of properties are identifiers, and a name is no computed key. -/
def Expression.Writable : Expression → Prop
  | .atom a _ => a.Writable
  | .array items _ => Expression.AllWritable items
  | .dictionary entries _ => Entry.AllWritable entries
  | .function _ => False
  | .negate operand _ => operand.Writable
  | .binary _ left right _ => left.Writable ∧ right.Writable
  | .call callee arguments _ =>
    callee.Writable ∧ ¬callee.IsNegation ∧ Expression.AllWritable arguments
  | .property object (.atom (.string name) _) _ =>
    object.Writable ∧ ¬object.IsNegation ∧ IsIdentifier name
  | .property object key _ => object.Writable ∧ ¬object.IsNegation ∧ key.Writable

def Expression.AllWritable : List Expression → Prop
  | [] => True
  | e :: es => e.Writable ∧ Expression.AllWritable es

def Key.Writable : Key → Prop
  | .name name => IsIdentifier name.text
  | .computed key => key.Writable ∧ ¬key.IsName

def Entry.Writable : Entry → Prop
  | .mk key value => key.Writable ∧ value.Writable

def Entry.AllWritable : List Entry → Prop
  | [] => True
  | e :: es => e.Writable ∧ Entry.AllWritable es

end

/-! ### what follows a part -/

/-- A character that ends every word and number before it. -/
def isStop (c : Char) : Bool :=
  c = ' ' || c = ',' || c = '(' || c = ')' || c = '[' || c = ']' || c = '\x7d'

theorem Stops.nil : Stops [] :=
  ⟨rfl, rfl, rfl⟩

theorem Stops.cons {c : Char} (h : isStop c = true) (rest : List Char) : Stops (c :: rest) := by
  simp only [isStop, Bool.or_eq_true, decide_eq_true_eq] at h
  rcases h with (((((rfl | rfl) | rfl) | rfl) | rfl) | rfl) | rfl
  all_goals exact ⟨rfl, rfl, rfl⟩

/-- The point before a name does not continue a number. -/
theorem Stops.point {w : List Char} (hw : IsWord w) (rest : List Char) :
    Stops ('.' :: (w ++ rest)) := by
  rcases w with _ | ⟨c, cs⟩
  · exact hw.elim
  obtain ⟨hc, -⟩ := hw
  exact ⟨by rfl, by rfl, by simp [fractionOf, hc.digit]⟩

/-! ### leaves and operators -/

theorem spells_identifier {s : String} (h : IsIdentifier s) {rest : List Char}
    (hrest : Stops rest) : Spells (s.toList ++ rest) [(.identifier, s)] rest := by
  simpa [h.word.2] using spells_word h.word.1 hrest.word

theorem Atom.spells {a : Atom} (h : a.Writable) {rest : List Char} (hrest : Stops rest) :
    Spells (a.text.toList ++ rest) [a.face] rest := by
  cases a with
  | null => exact spells_keyword (by decide) hrest.word
  | number v =>
    obtain ⟨m, q, hv⟩ := h.finite
    simpa [Atom.text, Atom.face] using spells_number (plain_text_isPlain hv h.positive) hrest
  | string v =>
    have hv := spells_string h rest
    have hface : String.ofList ('"' :: (v.toList ++ ['"'])) = "\"" ++ v ++ "\"" := by
      simp [← String.toList_inj]
    rw [hface] at hv
    simpa [Atom.text, Atom.face] using hv
  | boolean v =>
    cases v with
    | true => exact spells_keyword (by decide) hrest.word
    | false => exact spells_keyword (by decide) hrest.word
  | identifier name => exact spells_identifier h hrest

theorem Operator.spells (op : Operator) (rest : List Char) :
    Spells (op.text.toList ++ ' ' :: rest) [op.face] (' ' :: rest) := by
  have hstop : (' ' :: rest).head? ≠ some '=' := by simp
  cases op with
  | and => exact spells_keyword (by decide) (Stops.cons rfl rest).word
  | or => exact spells_keyword (by decide) (Stops.cons rfl rest).word
  | equal => exact spells_withEqual .equal rfl _
  | notEqual => exact spells_withEqual .bang rfl _
  | greaterEqual => exact spells_withEqual .greater rfl _
  | lessEqual => exact spells_withEqual .less rfl _
  | greater => exact spells_opening .greater rfl rfl _ hstop
  | less => exact spells_opening .less rfl rfl _ hstop
  | add => exact spells_symbol rfl _
  | subtract => exact spells_symbol rfl _
  | multiply => exact spells_symbol rfl _
  | divide => exact spells_symbol rfl _
  | modulo => exact spells_symbol rfl _

/-! ### expressions -/

/-- Texts, each behind a comma. -/
def afterCommas (ss : List String) : List Char :=
  ss.flatMap fun s => ',' :: ' ' :: s.toList

theorem afterCommas_cons (s : String) (ss : List String) :
    afterCommas (s :: ss) = ',' :: ' ' :: (s.toList ++ afterCommas ss) := by
  simp [afterCommas]

theorem Stops.afterCommas (ss : List String) {rest : List Char} (hrest : Stops rest) :
    Stops (afterCommas ss ++ rest) := by
  cases ss with
  | nil => exact hrest
  | cons s ss =>
    rw [afterCommas_cons]
    exact .cons rfl _

theorem commaSeparated_cons (s : String) (ss : List String) :
    (Text.commaSeparated (s :: ss)).toList = s.toList ++ afterCommas ss := by
  induction ss generalizing s with
  | nil => simp [Text.commaSeparated, afterCommas]
  | cons t ss ih =>
    have hcons := ih t
    simp only [Text.commaSeparated, String.toList_intercalate, List.map_cons] at hcons ⊢
    rw [List.intercalate_cons_cons, hcons, afterCommas_cons]
    simp

theorem Expression.faces_ne_nil {e : Expression} (h : e.Writable) : e.faces ≠ [] := by
  cases e with
  | function => exact absurd h (by simp [Expression.Writable])
  | property object key =>
    unfold Expression.faces
    split <;> simp_all
  | _ => simp [Expression.faces]

theorem Entry.faces_ne_nil (e : Entry) : e.faces ≠ [] := by
  cases e
  simp [Entry.faces]

/-- The key of a property is a string, which is written after a point, or it is not. -/
theorem Expression.string_or_not (key : Expression) :
    (∃ name span, key = .atom (.string name) span) ∨
      ∀ name span, key = .atom (.string name) span → False := by
  by_cases h : ∃ name span, key = .atom (.string name) span
  · exact .inl h
  · exact .inr fun name span hkey => h ⟨name, span, hkey⟩

mutual

/-- The text of an expression spells its faces. -/
theorem Expression.spells (e : Expression) (h : e.Writable) {rest : List Char}
    (hrest : Stops rest) : Spells (e.text.toList ++ rest) e.faces rest := by
  match e with
  | .atom a _ => exact Atom.spells h hrest
  | .array items _ =>
    have hitems := Expression.spellsAll items h (.cons (c := ']') rfl rest)
    simpa [Expression.text, Expression.faces] using
      (spells_symbol (c := '[') rfl _).cons (hitems.append (spells_symbol rfl rest))
  | .dictionary entries _ =>
    have hentries := Entry.spellsAll entries h (.cons (c := '\x7d') rfl rest)
    simpa [Expression.text, Expression.faces] using
      (spells_symbol (c := '\x7b') rfl _).cons (hentries.append (spells_symbol rfl rest))
  | .function _ => exact h.elim
  | .negate operand _ =>
    have hoperand := (Expression.spells operand h hrest).blank (Expression.faces_ne_nil h)
    simpa [Expression.text, Expression.faces] using
      (spells_keyword (w := "negar") (by decide) rfl).cons hoperand
  | .binary op left right _ =>
    obtain ⟨hl, hr⟩ := h
    have hright := (Expression.spells right hr (.cons (c := ')') rfl rest)).blank
      (Expression.faces_ne_nil hr)
    have hop := (op.spells (right.text.toList ++ ')' :: rest)).blank (by simp)
    have hleft := (Expression.spells left hl (.cons rfl _)).append hop
    simpa [Expression.text, Expression.faces] using
      (spells_symbol (c := '(') rfl _).cons
        (hleft.append (hright.append (spells_symbol rfl rest)))
  | .call callee arguments _ =>
    obtain ⟨hc, -, ha⟩ := h
    have harguments := Expression.spellsAll arguments ha (.cons (c := ')') rfl rest)
    have hlist := (spells_symbol (c := '(') rfl _).cons
      (harguments.append (spells_symbol rfl rest))
    simpa [Expression.text, Expression.faces] using
      (Expression.spells callee hc (.cons rfl _)).append hlist
  | .property object key _ =>
    rcases key.string_or_not with ⟨name, _, rfl⟩ | hkey
    · obtain ⟨ho, -, hn⟩ := h
      have hobject := Expression.spells object ho (.point hn.word.1 rest)
      simpa [Expression.text, Expression.faces] using
        hobject.append ((spells_symbol rfl _).cons (spells_identifier hn hrest))
    · simp only [Expression.Writable] at h
      obtain ⟨ho, -, hk⟩ := h
      have hindex := Expression.spells key hk (.cons (c := ']') rfl rest)
      have hbrackets := (spells_symbol (c := '[') rfl _).cons
        (hindex.append (spells_symbol rfl rest))
      simpa [Expression.text, Expression.faces, hkey] using
        (Expression.spells object ho (.cons rfl _)).append hbrackets

theorem Expression.spellsAll (es : List Expression) (h : Expression.AllWritable es)
    {rest : List Char} (hrest : Stops rest) :
    Spells ((Text.commaSeparated (Expression.textAll es)).toList ++ rest)
      (Expression.facesAll es) rest := by
  match es with
  | [] => exact .nil rest
  | e :: es =>
    have hafter := Expression.spellsAfter es h.2 hrest
    have he := Expression.spells e h.1 (hrest.afterCommas (Expression.textAll es))
    simpa [Expression.textAll, Expression.facesAll, commaSeparated_cons] using he.append hafter

theorem Expression.spellsAfter (es : List Expression) (h : Expression.AllWritable es)
    {rest : List Char} (hrest : Stops rest) :
    Spells (afterCommas (Expression.textAll es) ++ rest) (Expression.facesAfter es) rest := by
  match es with
  | [] => exact .nil rest
  | e :: es =>
    have hafter := Expression.spellsAfter es h.2 hrest
    have he := (Expression.spells e h.1 (hrest.afterCommas (Expression.textAll es))).blank
      (Expression.faces_ne_nil h.1)
    simpa [Expression.textAll, Expression.facesAfter, afterCommas_cons] using
      (spells_symbol (c := ',') rfl _).cons (he.append hafter)

theorem Entry.spells (e : Entry) (h : e.Writable) {rest : List Char} (hrest : Stops rest) :
    Spells (e.text.toList ++ rest) e.faces rest := by
  match e with
  | .mk key value =>
    have hvalue := (Expression.spells value h.2 hrest).blank (Expression.faces_ne_nil h.2)
    have hequal := (spells_opening .equal (c := '=') rfl rfl
      (' ' :: (value.text.toList ++ rest)) (by simp)).blank (by simp)
    have hafter := hequal.cons hvalue
    match key with
    | .name name =>
      simpa [Entry.text, Entry.faces, Key.faces] using
        (spells_identifier h.1 (.cons rfl _)).cons hafter
    | .computed key =>
      have hclose := (spells_symbol (c := ']') rfl _).cons hafter
      simpa [Entry.text, Entry.faces, Key.faces] using
        (spells_symbol (c := '[') rfl _).cons
          ((Expression.spells key h.1.1 (.cons rfl _)).append hclose)

theorem Entry.spellsAll (es : List Entry) (h : Entry.AllWritable es)
    {rest : List Char} (hrest : Stops rest) :
    Spells ((Text.commaSeparated (Entry.textAll es)).toList ++ rest) (Entry.facesAll es) rest := by
  match es with
  | [] => exact .nil rest
  | e :: es =>
    have hafter := Entry.spellsAfter es h.2 hrest
    have he := Entry.spells e h.1 (hrest.afterCommas (Entry.textAll es))
    simpa [Entry.textAll, Entry.facesAll, commaSeparated_cons] using he.append hafter

theorem Entry.spellsAfter (es : List Entry) (h : Entry.AllWritable es)
    {rest : List Char} (hrest : Stops rest) :
    Spells (afterCommas (Entry.textAll es) ++ rest) (Entry.facesAfter es) rest := by
  match es with
  | [] => exact .nil rest
  | e :: es =>
    have hafter := Entry.spellsAfter es h.2 hrest
    have he := (Entry.spells e h.1 (hrest.afterCommas (Entry.textAll es))).blank e.faces_ne_nil
    simpa [Entry.textAll, Entry.facesAfter, afterCommas_cons] using
      (spells_symbol (c := ',') rfl _).cons (he.append hafter)

end

end Roteiro
