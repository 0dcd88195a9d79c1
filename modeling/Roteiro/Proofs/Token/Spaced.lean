import Roteiro.Proofs.Source.Lines
import Roteiro.Proofs.Token.Longest
import Roteiro.Proofs.Token.Spelling

/-!
Texts that are written token by token, with blanks and comments between. However the gaps are
filled, a text that is a token by itself is read as that token when a gap or the end comes after it
(`Cursor.readLongest_spaced`). So the lexer gives back what was written, token for token, and each
token stands where its text was written (`Lexer.undoes_writing`).
-/

namespace Roteiro

open Text String Decimal

/-! ### gaps -/

/-- Blanks and comments, each comment with the newline that ends it. -/
inductive IsGap : List Char → Prop
  | nil : IsGap []
  | blank {c : Char} {gap : List Char} : isBlank c = true → IsGap gap → IsGap (c :: gap)
  | comment {body gap : List Char} :
      '\n' ∉ body → IsGap gap → IsGap ('#' :: (body ++ '\n' :: gap))

/-- A gap is skipped. -/
theorem IsGap.skip {gap : List Char} (h : IsGap gap) (rest : List Char) (pos : Nat) :
    Cursor.skip (gap ++ rest) pos = Cursor.skip rest (pos + utf8Len gap) := by
  induction h generalizing pos with
  | nil => rfl
  | @blank c gap hc _ ih =>
    rw [List.cons_append, Cursor.skip, if_pos hc, ih, utf8Len_cons, Nat.add_assoc,
      Nat.add_comm c.utf8Size]
  | @comment body gap hbody _ ih =>
    have hhash : isBlank '#' = false := rfl
    have hnewline : isBlank '\n' = true := rfl
    have reach : pos + utf8Len ('#' :: body) + '\n'.utf8Size + utf8Len gap =
        pos + utf8Len ('#' :: (body ++ '\n' :: gap)) := by
      simp only [utf8Len_cons, utf8Len_append]
      omega
    rw [List.cons_append, List.append_assoc, Cursor.skip, hhash, if_neg Bool.false_ne_true,
      if_pos rfl, List.takeWhile_append_of_pos (all_ne hbody),
      List.dropWhile_append_of_pos (all_ne hbody)]
    simp only [List.cons_append, ne_eq, List.takeWhile_cons, List.dropWhile_cons, not_true_eq_false,
      decide_false, Bool.false_eq_true, if_false, List.append_nil]
    rw [Cursor.skip, if_pos hnewline, ih, reach]

/-- Nothing after a token continues it, and no equals sign comes. -/
structure Apart (rest : List Char) : Prop where
  stops : Stops rest
  equal : rest.head? ≠ some '='

theorem Apart.nil : Apart [] :=
  ⟨⟨rfl, rfl, rfl⟩, nofun⟩

/-- No blank continues a word. -/
theorem continuesIdentifier_of_isBlank {c : Char} (h : isBlank c = true) :
    continuesIdentifier c = false := by
  have hall : ∀ r ∈ blankRanges, ∀ n ∈ List.range' r.1 (r.2 + 1 - r.1),
      continuesIdentifier (Char.ofNat n) = false := by
    decide +kernel
  obtain ⟨r, hr, hlow, hhigh⟩ := Ranges.contains_iff.mp h
  have := hall r hr c.toNat (by rw [List.mem_range'_1]; omega)
  rwa [Char.ofNat_toNat] at this

theorem Apart.blank {c : Char} (h : isBlank c = true) (rest : List Char) : Apart (c :: rest) := by
  obtain ⟨hsymbol, hopening, -, -, hdigit, -⟩ := blank_begins_nothing h
  have hpoint : c ≠ '.' := by
    rintro rfl
    cases hsymbol
  refine ⟨⟨?_, ?_, ?_⟩, ?_⟩
  · rw [List.takeWhile_cons, continuesIdentifier_of_isBlank h]
    rfl
  · rw [List.takeWhile_cons, hdigit]
    rfl
  · unfold fractionOf
    split
    · next heq => exact absurd (List.cons.inj heq).1 hpoint
    · rfl
  · rintro heq
    cases heq
    cases hopening

/-- A gap that is not empty sets tokens apart. -/
theorem IsGap.apart {gap : List Char} (h : IsGap gap) (hne : gap ≠ []) (rest : List Char) :
    Apart (gap ++ rest) := by
  cases h with
  | nil => exact absurd rfl hne
  | blank hc _ => exact .blank hc _
  | comment _ _ => exact ⟨⟨rfl, rfl, rfl⟩, by simp⟩

/-! ### one token -/

/-- A number's digits and fraction are read back when what follows is apart from it. -/
theorem Decimal.IsPlain.front {text rest : List Char} (h : IsPlain text) (hrest : Stops rest) :
    (text ++ rest).takeWhile Char.isDigit ++ fractionOf ((text ++ rest).dropWhile Char.isDigit) =
      text := by
  cases h with
  | whole h =>
    rw [List.takeWhile_append_of_pos h.digits, List.dropWhile_append_of_pos h.digits, hrest.digits,
      hrest.dropWhile, hrest.fraction, List.append_nil, List.append_nil]
  | @fraction ds fs h h' =>
    have hpoint : '.'.isDigit = false := rfl
    have hfraction : fractionOf ('.' :: (fs ++ rest)) = '.' :: fs := by
      rw [fractionOf, List.takeWhile_append_of_pos h'.digits, hrest.digits]
      simp [h'.ne_nil]
    rw [List.append_assoc, List.takeWhile_append_of_pos h.digits,
      List.dropWhile_append_of_pos h.digits]
    simp [hpoint, hfraction]

/-- A text that is a token, and is set apart from what follows, is the longest token. -/
theorem longestToken?_append {text rest : List Char} {kind : Kind}
    (h : Kind.ofText? text = some kind) (hrest : Apart rest) :
    longestToken? (text ++ rest) = some (text, kind) := by
  cases text with
  | nil => cases h
  | cons c ds =>
    rw [List.cons_append]
    by_cases hword : startsIdentifier c = true
    · rw [ofText?_word ds hword] at h
      obtain ⟨hds, ⟨⟩⟩ := Option.ite_none_right_eq_some.1 h
      rw [longestToken?_word _ hword, List.takeWhile_append_of_pos (List.all_eq_true.mp hds),
        hrest.stops.word, List.append_nil]
    by_cases hdigit : c.isDigit = true
    · rw [ofText?_number ds hdigit] at h
      obtain ⟨hplain, ⟨⟩⟩ := Option.ite_none_right_eq_some.1 h
      have front := hplain.front hrest.stops
      rw [List.cons_append, List.takeWhile_cons, List.dropWhile_cons, if_pos hdigit, if_pos hdigit,
        List.cons_append] at front
      rw [longestToken?_number _ hdigit, front]
    by_cases hquote : c = '"'
    · subst hquote
      rw [ofText?_string] at h
      obtain ⟨⟨inner, hinner, htext⟩, ⟨⟩⟩ := Option.ite_none_right_eq_some.1 h
      obtain rfl := (List.cons.inj htext).2
      rw [List.append_assoc, List.singleton_append, longestToken?_string hinner]
    cases hsymbol : Symbol.ofChar? c with
    | some s =>
      rw [ofText?_symbol ds hsymbol] at h
      obtain ⟨rfl, ⟨⟩⟩ := Option.ite_none_right_eq_some.1 h
      rw [List.nil_append, longestToken?_symbol rest hsymbol]
    | none =>
      cases hopening : Opening.ofChar? c with
      | none =>
        rw [ofText?_unrecognized ds hsymbol hopening hquote (by simpa using hdigit)
          (by simpa using hword)] at h
        cases h
      | some first =>
        rw [ofText?_opening ds hopening] at h
        split_ifs at h with hnil hequal
        · subst hnil
          obtain ⟨s, hs, hkind⟩ := Option.map_eq_some_iff.1 h
          rw [List.nil_append, longestToken?_opening hopening hrest.equal, hs, ← hkind]
          rfl
        · subst hequal
          cases h
          rw [List.singleton_append, longestToken?_withEqual rest hopening]

/-- Neither a blank nor a comment begins where a token does. -/
theorem Cursor.skip_token {text : List Char} {kind : Kind} (h : Kind.ofText? text = some kind)
    (rest : List Char) (pos : Nat) : skip (text ++ rest) pos = ⟨text ++ rest, pos⟩ := by
  cases text with
  | nil => cases h
  | cons c ds =>
    have hblank : ¬isBlank c = true := by
      intro hblank
      obtain ⟨hsymbol, hopening, hquote, -, hdigit, hword⟩ := blank_begins_nothing hblank
      rw [ofText?_unrecognized ds hsymbol hopening hquote hdigit hword] at h
      cases h
    have hhash : ¬c = '#' := by
      rintro rfl
      rw [ofText?_unrecognized ds rfl rfl (by decide) rfl rfl] at h
      cases h
    rw [List.cons_append, skip, if_neg hblank, if_neg hhash]

/-- **What is read of a token behind a gap** is this token, if what follows is set apart from it. -/
theorem Cursor.readLongest_spaced {gap text rest : List Char} {kind : Kind} (hgap : IsGap gap)
    (h : Kind.ofText? text = some kind) (hrest : Apart rest) (pos : Nat) :
    readLongest ⟨gap ++ (text ++ rest), pos⟩ =
      (.ok ⟨kind, String.ofList text, ⟨pos + utf8Len gap, utf8Len text⟩⟩,
        ⟨rest, pos + utf8Len gap + utf8Len text⟩) := by
  have longest := longestToken?_append h hrest
  unfold readLongest
  rw [hgap.skip, skip_token h]
  dsimp only
  cases text with
  | nil => cases h
  | cons c ds =>
    rw [List.cons_append] at longest ⊢
    rw [readingAt, longest]
    dsimp only
    rw [← List.cons_append, List.drop_left]

/-! ### tokens written one after the other -/

/-- A text that is a token, with the gap behind it. -/
structure Spaced where
  text : List Char
  kind : Kind
  gap : List Char
  isToken : Kind.ofText? text = some kind
  isGap : IsGap gap

namespace Spaced

def face (p : Spaced) : Face :=
  (p.kind, String.ofList p.text)

/-- The characters of some tokens and of the gaps behind them. -/
def chars (ps : List Spaced) : List Char :=
  ps.flatMap fun p => p.text ++ p.gap

/-- The token that is read where a text is written behind the characters `before`. -/
def token (before : List Char) (p : Spaced) : Token :=
  let front := String.ofList before
  let text := String.ofList p.text
  ⟨p.kind, text, ⟨front.utf8ByteSize, text.utf8ByteSize⟩, (newlineBytes front + 1) % UInt32.size⟩

/-- The tokens that are read where some texts are written behind the characters `before`. -/
def tokens (before : List Char) : List Spaced → List Token
  | [] => []
  | p :: ps => p.token before :: tokens (before ++ p.text ++ p.gap) ps

end Spaced

/-- The end of a source. -/
def Token.endOf (source : String) : Token :=
  ⟨.eof, "", ⟨source.utf8ByteSize, 0⟩, (newlineBytes source + 1) % UInt32.size⟩

/-- A token stands in a source behind the text `front`. -/
structure Token.StandsBehind (source front : String) (t : Token) : Prop where
  text : ∃ back, source = front ++ t.lexeme ++ back
  span : t.span = ⟨front.utf8ByteSize, t.lexeme.utf8ByteSize⟩
  /-- Its line is cut to a word. -/
  word : t.line = (newlineBytes front + 1) % UInt32.size
  /-- Nothing is cut off in a source with fewer lines than there are words. -/
  line : newlineBytes source + 1 < UInt32.size → t.line = newlineBytes front + 1
  /-- Its line is one of the lines of the source. -/
  line_le : t.line ≤ newlineBytes source + 1

namespace Spaced

variable {before lead : List Char} {ps : List Spaced}

theorem chars_cons (p : Spaced) (ps : List Spaced) :
    chars (p :: ps) = p.text ++ (p.gap ++ chars ps) := by
  rw [chars, List.flatMap_cons, List.append_assoc]
  rfl

theorem faces_tokens (before : List Char) (ps : List Spaced) :
    (tokens before ps).map Token.face = ps.map face := by
  induction ps generalizing before with
  | nil => rfl
  | cons p ps ih =>
    rw [tokens, List.map_cons, List.map_cons, ih]
    rfl

/-- Each token stands where its text was written. -/
theorem standsBehind {source : String} (hsource : source = String.ofList (before ++ chars ps)) :
    ∀ t ∈ tokens before ps, ∃ front, t.StandsBehind source front := by
  induction ps generalizing before with
  | nil => nofun
  | cons p ps ih =>
    have split : source = String.ofList before ++ String.ofList p.text ++
        String.ofList (p.gap ++ chars ps) := by
      rw [hsource, chars_cons, ← String.ofList_append, ← String.ofList_append, List.append_assoc]
    intro t ht
    rcases List.mem_cons.1 ht with rfl | ht
    · have lines : newlineBytes (String.ofList before) + 1 ≤ newlineBytes source + 1 := by
        rw [split, newlineBytes_append, newlineBytes_append]
        omega
      exact ⟨String.ofList before, ⟨_, split⟩, rfl, rfl,
        fun few => Nat.mod_eq_of_lt (Nat.lt_of_le_of_lt lines few),
        Nat.le_trans (Nat.mod_le _ _) lines⟩
    · refine ih ?_ t ht
      rw [hsource, chars_cons]
      simp only [List.append_assoc]

/-- What comes after a token that is set apart from the next one. -/
theorem apart_rest (p : Spaced) (hgap : ps ≠ [] → p.gap ≠ []) : Apart (p.gap ++ chars ps) := by
  by_cases hne : p.gap = []
  · have hps : ps = [] := by
      by_contra h
      exact hgap h hne
    rw [hne, hps]
    exact .nil
  · exact p.isGap.apart hne _

/-- The line of what stands behind some characters. -/
theorem lineOf_eq {source : String} {after : List Char}
    (hsource : source = String.ofList (before ++ after)) (length : Nat) :
    (Lines.ofText source).lineOf ⟨(String.ofList before).utf8ByteSize, length⟩ =
      (newlineBytes (String.ofList before) + 1) % UInt32.size := by
  rw [hsource, String.ofList_append, newlineBytes_eq]
  exact Lines.lineAt_utf8ByteSize _ _

/-- In the last gap, the lexer reads the end. -/
theorem longestItems_end {source : String} (whole : source = String.ofList (before ++ lead))
    (hlead : IsGap lead) :
    Cursor.longestItems (.ofText source) ⟨lead, utf8Len before⟩ = [.ok (Token.endOf source)] := by
  have reach : utf8Len before + utf8Len lead = source.utf8ByteSize := by
    rw [whole, String.utf8ByteSize_ofList, utf8Len_append]
  have ending : source = String.ofList (before ++ lead ++ []) := by
    rw [whole, List.append_nil]
  have line := lineOf_eq ending 0
  rw [← whole] at line
  have skipped : Cursor.skip lead (utf8Len before) = ⟨[], source.utf8ByteSize⟩ := by
    have skips := hlead.skip [] (utf8Len before)
    rw [List.append_nil] at skips
    rw [skips, reach, Cursor.skip]
  rw [Cursor.longestItems, skipped, if_pos rfl]
  unfold Cursor.readLongest
  rw [skipped]
  simp [readingAt, Except.map, Token.endOf, line]

/-- Skipping the gap in front of a token does not bring the lexer to the end. -/
theorem rest_skip_ne_nil (hlead : IsGap lead) (p : Spaced) (rest : List Char) (pos : Nat) :
    (Cursor.skip (lead ++ (p.text ++ rest)) pos).rest ≠ [] := by
  rw [hlead.skip, Cursor.skip_token p.isToken]
  intro ends
  have token := p.isToken
  rw [(List.append_eq_nil_iff.1 ends).1] at token
  cases token

/-- From a gap on, the lexer reads the tokens that are written behind it, and then the end. -/
theorem longestItems {source : String}
    (hsource : source = String.ofList (before ++ (lead ++ chars ps))) (hlead : IsGap lead)
    (hgaps : ∀ p ∈ ps.dropLast, p.gap ≠ []) :
    Cursor.longestItems (.ofText source) ⟨lead ++ chars ps, utf8Len before⟩ =
      (tokens (before ++ lead) ps ++ [Token.endOf source]).map .ok := by
  induction ps generalizing before lead with
  | nil =>
    rw [chars, List.flatMap_nil, List.append_nil] at hsource ⊢
    exact longestItems_end hsource hlead
  | cons p ps ih =>
    have later : source = String.ofList (before ++ lead ++ p.text ++ (p.gap ++ chars ps)) := by
      rw [hsource, chars_cons]
      simp only [List.append_assoc]
    have here : source = String.ofList ((before ++ lead) ++ (p.text ++ (p.gap ++ chars ps))) := by
      rw [later, List.append_assoc]
    have reach : utf8Len before + utf8Len lead = (String.ofList (before ++ lead)).utf8ByteSize := by
      rw [String.utf8ByteSize_ofList, utf8Len_append]
    have past : utf8Len before + utf8Len lead + utf8Len p.text =
        utf8Len (before ++ lead ++ p.text) := by
      rw [utf8Len_append, utf8Len_append]
    have apart : Apart (p.gap ++ chars ps) := by
      refine p.apart_rest fun hne => hgaps p ?_
      obtain ⟨q, qs, rfl⟩ := List.exists_cons_of_ne_nil hne
      exact List.mem_cons_self ..
    have read := Cursor.readLongest_spaced hlead p.isToken apart (utf8Len before)
    have unended := rest_skip_ne_nil hlead p (p.gap ++ chars ps) (utf8Len before)
    rw [chars_cons, Cursor.longestItems, if_neg unended, read, past,
      ih later p.isGap fun q hq => hgaps q ?_]
    · have size : utf8Len p.text = (String.ofList p.text).utf8ByteSize :=
        (String.utf8ByteSize_ofList _).symm
      rw [reach, size, tokens, List.cons_append, List.map_cons]
      simp only [Except.map, lineOf_eq here]
      rfl
    · cases ps with
      | nil => cases hq
      | cons r rs => exact List.mem_cons_of_mem _ hq

end Spaced

/-- **Lexing undoes writing.** Texts that are tokens are written one after the other, with gaps
between them that are not empty, and gaps in front of the first one and behind the last one. Then
the lexer reads exactly these tokens, in this order and without an error, and then the end. Each has
the kind and the text that was written; its span cuts this text out of the source, and its line is
one more than the number of newline bytes before it, as long as a word can count the lines. -/
theorem Lexer.undoes_writing (lead : List Char) (ps : List Spaced) (hlead : IsGap lead)
    (hgaps : ∀ p ∈ ps.dropLast, p.gap ≠ []) :
    let source := String.ofList (lead ++ Spaced.chars ps)
    tokenize source = (Spaced.tokens lead ps ++ [Token.endOf source]).map .ok ∧
      (Spaced.tokens lead ps).map Token.face = ps.map Spaced.face ∧
      ∀ t ∈ Spaced.tokens lead ps, ∃ front, t.StandsBehind source front := by
  intro source
  refine ⟨?_, Spaced.faces_tokens lead ps, Spaced.standsBehind rfl⟩
  have start : source.toList = lead ++ Spaced.chars ps := String.toList_ofList
  have whole : source = String.ofList ([] ++ (lead ++ Spaced.chars ps)) := rfl
  calc tokenize source
    _ = (Cursor.ofText source).longestItems (.ofText source) :=
        itemsWithin_eq_longestItems _ _ _ (Nat.lt_succ_self _)
    _ = Cursor.longestItems (.ofText source) ⟨lead ++ Spaced.chars ps, 0⟩ := by
        rw [Cursor.ofText, start]
    _ = _ := Spaced.longestItems whole hlead hgaps

/-- A comment that holds a quote, and a string that holds a number sign and a newline. -/
theorem Lexer.undoes_writing_of_comment :
    let ps : List Spaced := [
      ⟨"função".toList, .keyword .funcao, _, by decide +kernel, @IsGap.blank ' ' _ rfl .nil⟩,
      ⟨"<=".toList, .symbol .lessEqual, _, by decide +kernel,
        @IsGap.comment ['"'] _ (by decide) .nil⟩,
      ⟨"\"é#\n\"".toList, .string, _, by decide +kernel, @IsGap.blank '\n' _ rfl .nil⟩,
      ⟨"3.5".toList, .number, _, by decide +kernel, .nil⟩]
    (∀ p ∈ ps.dropLast, p.gap ≠ []) ∧
      tokenize "função <=#\"\n\"é#\n\"\n3.5" = [
        .ok ⟨.keyword .funcao, "função", ⟨0, 8⟩, 1⟩, .ok ⟨.symbol .lessEqual, "<=", ⟨9, 2⟩, 1⟩,
        .ok ⟨.string, "\"é#\n\"", ⟨14, 6⟩, 2⟩, .ok ⟨.number, "3.5", ⟨21, 3⟩, 4⟩,
        .ok ⟨.eof, "", ⟨24, 0⟩, 4⟩] := by
  intro ps
  have hgaps : ∀ p ∈ ps.dropLast, p.gap ≠ [] := by simp [ps]
  exact ⟨hgaps, (undoes_writing [] ps .nil hgaps).1.trans (by decide +kernel)⟩

end Roteiro
