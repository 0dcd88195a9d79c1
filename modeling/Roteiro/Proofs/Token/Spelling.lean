import Mathlib.Data.List.TakeWhile
import Roteiro.Proofs.Decimal.Plain
import Roteiro.Proofs.Token.Tiling

/-!
Texts that are tokens written one after the other. `Spells cs fs rest` says that from `cs` on the
lexer reads tokens that show `fs`, and then stands at `rest`. What a single token is written as is
read as that token as long as `rest` does not continue it.
-/

namespace Roteiro

open Text String Decimal

/-- The kind and the lexeme of a token. -/
abbrev Face := Kind × String

def Token.face (t : Token) : Face :=
  (t.kind, t.lexeme)

/-! ### tokens in a row -/

/-- Tokens that are read one after the other, none of them the end. -/
inductive Lexed (lines : Lines) : Cursor → List Token → Cursor → Prop
  | nil (cursor : Cursor) : Lexed lines cursor [] cursor
  | cons {cursor mid stop : Cursor} {t : Token} {ts : List Token} :
      (Lexer.mk lines cursor).next = (.ok t, ⟨lines, mid⟩) → t.kind ≠ .eof →
      Lexed lines mid ts stop → Lexed lines cursor (t :: ts) stop

namespace Lexed

variable {lines : Lines} {cursor mid stop : Cursor} {ts us : List Token}

theorem append (h : Lexed lines cursor ts mid) (h' : Lexed lines mid us stop) :
    Lexed lines cursor (ts ++ us) stop := by
  induction h with
  | nil => exact h'
  | cons hnext hkind _ ih => exact .cons hnext hkind (ih h')

/-- Each token takes at least one character. -/
theorem length_le (h : Lexed lines cursor ts stop) : ts.length ≤ cursor.rest.length := by
  induction h with
  | nil => exact Nat.zero_le _
  | @cons cursor mid stop t ts hnext hkind _ ih =>
    rcases Lexer.next_cases lines cursor.rest cursor.offset with ⟨-, hend⟩ |
      ⟨gap, text, rest, i, hcs, -, htext, -, -, hnext'⟩
    · obtain ⟨ht, -⟩ := Prod.mk.inj (hend.symm.trans hnext)
      obtain rfl := Except.ok.inj ht
      exact absurd rfl hkind
    · obtain ⟨-, hmid⟩ := Prod.mk.inj (hnext'.symm.trans hnext)
      obtain rfl := (Lexer.mk.inj hmid).2
      have := List.length_pos_iff.mpr htext
      simp only [hcs, List.length_append, List.length_cons] at ih ⊢
      omega

/-- Tokens that are read up to the end are all the items. -/
theorem itemsWithin {pos : Nat} (h : Lexed lines cursor ts ⟨[], pos⟩) {fuel : Nat}
    (hfuel : ts.length < fuel) : (Lexer.itemsWithin fuel ⟨lines, cursor⟩).1 =
      (ts ++ [(Lexer.mk lines cursor).finish pos]).map .ok := by
  generalize hstop : (⟨[], pos⟩ : Cursor) = stop at h
  induction h generalizing fuel with
  | nil cursor =>
    subst hstop
    obtain ⟨fuel, rfl⟩ : ∃ n, fuel = n + 1 := ⟨fuel - 1, by simp at hfuel; omega⟩
    have hnext : (Lexer.mk lines ⟨[], pos⟩).next.1 = _ := Lexer.answer_of_nil lines pos 0
    rw [Lexer.itemsWithin]
    rcases hn : (Lexer.mk lines ⟨[], pos⟩).next with ⟨i, after⟩
    rw [hn] at hnext
    subst hnext
    simp [Lexer.finish]
  | @cons cursor mid stop t ts hnext hkind _ ih =>
    obtain ⟨fuel, rfl⟩ : ∃ n, fuel = n + 1 := ⟨fuel - 1, by simp at hfuel; omega⟩
    rw [Lexer.itemsWithin, hnext]
    simp only [hkind, if_false]
    rw [ih (by simpa using hfuel) hstop]
    rfl

end Lexed

/-- From `cs` on the lexer reads tokens that show `fs`, and then it stands at `rest`. -/
def Spells (cs : List Char) (fs : List Face) (rest : List Char) : Prop :=
  ∀ lines pos, ∃ ts stop, Lexed lines ⟨cs, pos⟩ ts ⟨rest, stop⟩ ∧ ts.map Token.face = fs

namespace Spells

variable {cs mid rest : List Char} {f : Face} {fs gs : List Face}

theorem nil (cs : List Char) : Spells cs [] cs :=
  fun _ pos => ⟨[], pos, .nil _, rfl⟩

theorem append (h : Spells cs fs mid) (h' : Spells mid gs rest) : Spells cs (fs ++ gs) rest := by
  intro lines pos
  obtain ⟨ts, at', hts, rfl⟩ := h lines pos
  obtain ⟨us, stop, hus, rfl⟩ := h' lines at'
  exact ⟨ts ++ us, stop, hts.append hus, by simp⟩

theorem cons (h : Spells cs [f] mid) (h' : Spells mid fs rest) : Spells cs (f :: fs) rest :=
  h.append h'

/-- One token, as a reading yields it. -/
theorem reading {kind : Kind} {text : String} (hkind : kind ≠ .eof)
    (h : ∀ pos, ∃ span stop, Cursor.read ⟨cs, pos⟩ = (.ok ⟨kind, text, span⟩, ⟨rest, stop⟩)) :
    Spells cs [(kind, text)] rest := by
  intro lines pos
  obtain ⟨span, stop, hread⟩ := h pos
  have hnext : (Lexer.mk lines ⟨cs, pos⟩).next =
      (.ok ⟨kind, text, span, lines.lineOf span⟩, ⟨lines, ⟨rest, stop⟩⟩) := by
    simp [Lexer.next, hread, Except.map]
  exact ⟨_, stop, .cons hnext hkind (.nil _), rfl⟩

/-- A text that spells faces up to the end is made of tokens that show them. -/
theorem tokensOf {source : String} (h : Spells source.toList fs []) :
    ∃ ts finish, TokensOf source ts finish ∧ ts.map Token.face = fs := by
  obtain ⟨ts, stop, hts, hfaces⟩ := h (.ofText source) 0
  have hitems := hts.itemsWithin (Nat.lt_succ_of_le hts.length_le)
  obtain ⟨list, last, hlist, hlast, hunfinished⟩ := tokenize_eq source
  have hcut : list ++ [.ok last] = ts.map .ok ++ [.ok (Lexer.finish _ stop)] :=
    hlist.symm.trans (hitems.trans List.map_append)
  obtain ⟨rfl, -⟩ := List.append_inj' hcut rfl
  exact ⟨ts, _, ⟨hitems, rfl, fun t ht => hunfinished t (List.mem_map_of_mem ht)⟩, hfaces⟩

end Spells

/-! ### blanks -/

/-- Where a token may begin, it does not matter where the reading began. -/
theorem scan_normal_start (cs : List Char) (start start' : Nat) (taken taken' : List Char)
    (pos : Nat) :
    scan .normal start taken cs pos = scan .normal start' taken' cs pos ∧
      scan .comment start taken cs pos = scan .comment start' taken' cs pos := by
  induction cs generalizing pos with
  | nil => exact ⟨rfl, rfl⟩
  | cons c cs ih =>
    constructor
    · simp only [scan, (ih _).1]
    · simp only [scan, (ih _).1, (ih _).2]

theorem Spells.blank {cs rest : List Char} {fs : List Face} (h : Spells cs fs rest)
    (hfs : fs ≠ []) : Spells (' ' :: cs) fs rest := by
  intro lines pos
  obtain ⟨ts, stop, hts, rfl⟩ := h lines (pos + ' '.utf8Size)
  have hread : Cursor.read ⟨' ' :: cs, pos⟩ = Cursor.read ⟨cs, pos + ' '.utf8Size⟩ := by
    have hskip : scan .normal pos [] (' ' :: cs) pos =
        scan .normal pos [] cs (pos + ' '.utf8Size) := by rw [scan]; rfl
    rw [Cursor.read, Cursor.read, hskip, (scan_normal_start cs ..).1]
  cases hts with
  | nil => simp at hfs
  | cons hnext hkind hts =>
    refine ⟨_, stop, .cons ?_ hkind hts, rfl⟩
    rw [Lexer.next] at hnext ⊢
    rw [hread]
    exact hnext

/-! ### symbols -/

theorem spells_symbol {c : Char} {s : Symbol} (h : Symbol.ofChar? c = some s) (cs : List Char) :
    Spells (c :: cs) [(.symbol s, String.ofList [c])] cs :=
  .reading (by simp) fun pos => ⟨_, _, by rw [Cursor.read, scan, h]; rfl⟩

theorem symbol_of_opening {c : Char} {first : Opening} (h : Opening.ofChar? c = some first) :
    Symbol.ofChar? c = none := by
  unfold Opening.ofChar? at h
  split at h
  · rfl
  · rfl
  · rfl
  · rfl
  · cases h

theorem spells_opening (first : Opening) {c : Char} {s : Symbol} (h : Opening.ofChar? c = some first)
    (halone : first.alone? = some s) (cs : List Char) (hcs : cs.head? ≠ some '=') :
    Spells (c :: cs) [(.symbol s, String.ofList [c])] cs := by
  refine .reading (by simp) fun pos => ?_
  rw [Cursor.read, scan, symbol_of_opening h, h]
  cases cs with
  | nil => simp [scan, Opening.reading, halone, Lexeme.of]
  | cons d cs =>
    have hd : d ≠ '=' := by simpa using hcs
    simp [scan, hd, Opening.reading, halone, Lexeme.of]

theorem spells_withEqual (first : Opening) {c : Char} (h : Opening.ofChar? c = some first)
    (cs : List Char) :
    Spells (c :: '=' :: cs) [(.symbol first.withEqual, String.ofList [c, '='])] cs := by
  refine .reading (by simp) fun pos => ?_
  rw [Cursor.read, scan, symbol_of_opening h, h]
  simp [scan, Lexeme.of]

/-! ### words -/

/-- A character that starts a word where a token may begin. -/
structure StartsWord (c : Char) : Prop where
  symbol : Symbol.ofChar? c = none
  opening : Opening.ofChar? c = none
  quote : c ≠ '"'
  hash : c ≠ '#'
  digit : c.isDigit = false
  starts : startsIdentifier c = true

instance (c : Char) : Decidable (StartsWord c) :=
  decidable_of_iff (Symbol.ofChar? c = none ∧ Opening.ofChar? c = none ∧ c ≠ '"' ∧ c ≠ '#' ∧
      c.isDigit = false ∧ startsIdentifier c = true)
    ⟨fun ⟨symbol, opening, quote, hash, digit, starts⟩ =>
        ⟨symbol, opening, quote, hash, digit, starts⟩,
      fun h => ⟨h.symbol, h.opening, h.quote, h.hash, h.digit, h.starts⟩⟩

/-- Characters that are a word. -/
def IsWord : List Char → Prop
  | [] => False
  | c :: cs => StartsWord c ∧ ∀ d ∈ cs, continuesIdentifier d = true

instance : DecidablePred IsWord
  | [] => .isFalse id
  | c :: cs =>
    have : Decidable (∀ d ∈ cs, continuesIdentifier d = true) := List.decidableBAll _ cs
    inferInstanceAs (Decidable (StartsWord c ∧ ∀ d ∈ cs, continuesIdentifier d = true))

theorem StartsWord.read {c : Char} (h : StartsWord c) (cs : List Char) (pos : Nat) :
    Cursor.read ⟨c :: cs, pos⟩ = scan .identifier pos [c] cs (pos + c.utf8Size) := by
  rw [Cursor.read, scan, h.symbol, h.opening]
  simp [h.quote, h.hash, h.digit, h.starts]

theorem spells_word {w rest : List Char} (hw : IsWord w)
    (hrest : rest.takeWhile continuesIdentifier = []) :
    Spells (w ++ rest) [(.ofWord (String.ofList w), String.ofList w)] rest := by
  rcases w with _ | ⟨c, cs⟩
  · exact hw.elim
  obtain ⟨hc, hcs⟩ := hw
  refine .reading (Kind.ofWord_ne_eof _) fun pos => ?_
  have hdrop : rest.dropWhile continuesIdentifier = rest := by
    simpa [hrest] using List.takeWhile_append_dropWhile (p := continuesIdentifier) (l := rest)
  rw [List.cons_append, hc.read, scan_identifier, List.takeWhile_append_of_pos hcs,
    List.dropWhile_append_of_pos hcs, hrest, hdrop]
  simp

theorem Keyword.isWord_of_spelling :
    ∀ p ∈ Keyword.spellings, IsWord p.1.toList ∧ Kind.ofWord p.1 = .keyword p.2 := by
  decide +kernel

theorem spells_keyword {w : String} {k : Keyword} (h : (w, k) ∈ Keyword.spellings)
    {rest : List Char} (hrest : rest.takeWhile continuesIdentifier = []) :
    Spells (w.toList ++ rest) [(.keyword k, w)] rest := by
  obtain ⟨hword, hkind⟩ := Keyword.isWord_of_spelling _ h
  simpa [hkind] using spells_word hword hrest

/-- A text that is a single token, an identifier. -/
def IsIdentifier (s : String) : Prop :=
  ∃ t finish, TokensOf s [t] finish ∧ t.face = (.identifier, s)

/-- What is read is not longer than what was ahead. -/
theorem Reads.length_le {cs : List Char} {pos : Nat} {l : Lexeme} {after : Cursor}
    (h : Reads cs pos (.ok l, after)) : l.text.toList.length ≤ cs.length := by
  cases h with
  | finish => simp
  | item hcs _ _ hi _ =>
    rw [hi.2.2, hcs]
    simp
    omega

/-- If all that is ahead is read as an identifier, it is a word. -/
theorem isWord_of_read {cs : List Char} {pos : Nat} {span : Span} {after : Cursor}
    (h : Cursor.read ⟨cs, pos⟩ = (.ok ⟨.identifier, String.ofList cs, span⟩, after)) :
    IsWord cs ∧ Kind.ofWord (String.ofList cs) = .identifier := by
  cases cs with
  | nil => simp [Cursor.read, scan, Lexeme.of] at h
  | cons c cs =>
    -- If something is skipped first, less than everything is read.
    have short : ∀ rest start taken pos, rest.length ≤ cs.length → scan .normal start taken rest pos ≠
        (.ok ⟨.identifier, String.ofList (c :: cs), span⟩, after) := by
      intro rest start taken pos hrest hscan
      have := (hscan ▸ reads_normal rest start taken pos).length_le
      simp at this
      omega
    rw [Cursor.read, scan] at h
    split at h
    · simp [Lexeme.of] at h
    · rename_i hsymbol
      split at h
      · rename_i first hfirst
        rcases cs with _ | ⟨d, cs⟩
        · cases first <;> simp [scan, Opening.reading, Opening.alone?, Lexeme.of] at h
        · by_cases hd : d = '='
          · simp [scan, hd, Lexeme.of] at h
          · cases first <;> simp [scan, hd, Opening.reading, Opening.alone?, Lexeme.of] at h
      · rename_i hopening
        split_ifs at h with hquote hhash hdigit hstarts hblank
        · rw [scan_string] at h
          dsimp only at h
          split at h <;> simp at h
        · obtain ⟨body, rest, rfl, -, -, hscan⟩ := scan_comment pos [] cs (pos + c.utf8Size)
          rw [hscan] at h
          exact absurd h (short _ _ _ _ (by simp))
        · rw [scan_number] at h
          simp at h
        · rw [scan_identifier] at h
          have htext : cs.takeWhile continuesIdentifier = cs := by
            have := congrArg (fun r => r.1.toOption.map (·.text.toList)) h
            simpa [Except.toOption] using this
          rw [htext] at h
          refine ⟨⟨⟨hsymbol, hopening, hquote, hhash, by simpa using hdigit, hstarts⟩, ?_⟩, ?_⟩
          · exact List.takeWhile_eq_self_iff.mp htext
          · have := congrArg (fun r => r.1.toOption.map (·.kind)) h
            simpa [Except.toOption] using this
        · exact absurd h (short _ _ _ _ le_rfl)
        · simp at h

theorem IsIdentifier.word {s : String} (h : IsIdentifier s) :
    IsWord s.toList ∧ Kind.ofWord s = .identifier := by
  obtain ⟨t, finish, htokens, hface⟩ := h
  have hread : ∃ span after, Cursor.read ⟨s.toList, 0⟩ =
      (.ok ⟨.identifier, String.ofList s.toList, span⟩, after) := by
    have hitems : (Lexer.itemsWithin (s.toList.length + 1) (Lexer.ofText s)).1 =
        [.ok t, .ok finish] := htokens.items
    rw [Lexer.itemsWithin, Lexer.next] at hitems
    rcases hr : Cursor.read ⟨s.toList, 0⟩ with ⟨l, after⟩
    have hr' : (Lexer.ofText s).cursor.read = (l, after) := hr
    rw [hr'] at hitems
    rcases l with e | ⟨kind, text, span⟩
    · simp [Except.map] at hitems
    · by_cases hkind : kind = .eof
      · simp [Except.map, hkind] at hitems
      · simp [Except.map, hkind] at hitems
        obtain ⟨rfl, -⟩ := hitems
        obtain ⟨rfl, htext⟩ := Prod.mk.inj hface
        obtain rfl : text = s := htext
        exact ⟨span, after, by simp⟩
  obtain ⟨span, after, hread⟩ := hread
  simpa using isWord_of_read hread

/-! ### numbers and strings -/

/-- Nothing at the front of these characters can continue a word or a number. -/
structure Stops (rest : List Char) : Prop where
  word : rest.takeWhile continuesIdentifier = []
  digits : rest.takeWhile Char.isDigit = []
  fraction : fractionOf rest = []

theorem Stops.dropWhile {rest : List Char} (h : Stops rest) : rest.dropWhile Char.isDigit = rest := by
  simpa [h.digits] using List.takeWhile_append_dropWhile (p := Char.isDigit) (l := rest)

theorem read_digit {c : Char} (hc : c.isDigit = true) (cs : List Char) (pos : Nat) :
    Cursor.read ⟨c :: cs, pos⟩ = scan .number pos [c] cs (pos + c.utf8Size) := by
  have hsymbol : Symbol.ofChar? c = none := by
    unfold Symbol.ofChar?
    split <;> first | rfl | simp at hc
  have hopening : Opening.ofChar? c = none := by
    unfold Opening.ofChar?
    split <;> first | rfl | simp at hc
  have hquote : c ≠ '"' := by rintro rfl; simp at hc
  have hhash : c ≠ '#' := by rintro rfl; simp at hc
  rw [Cursor.read, scan, hsymbol, hopening]
  simp [hquote, hhash, hc]

theorem spells_number {cs rest : List Char} (hcs : IsPlain cs) (hrest : Stops rest) :
    Spells (cs ++ rest) [(.number, String.ofList cs)] rest := by
  refine .reading (by simp) fun pos => ?_
  cases hcs with
  | whole h =>
    obtain ⟨hne, hdigits⟩ := h
    cases cs with
    | nil => exact absurd rfl hne
    | cons c cs =>
      obtain ⟨hc, hcs⟩ := List.forall_mem_cons.mp hdigits
      rw [List.cons_append, read_digit hc, scan_number, List.takeWhile_append_of_pos hcs,
        List.dropWhile_append_of_pos hcs, hrest.digits, hrest.dropWhile]
      simp [hrest.fraction]
  | @fraction ds fs h h' =>
    obtain ⟨hne, hdigits⟩ := h
    cases ds with
    | nil => exact absurd rfl hne
    | cons c ds =>
      obtain ⟨hc, hds⟩ := List.forall_mem_cons.mp hdigits
      have hpoint : '.'.isDigit = false := rfl
      have hfraction : fractionOf ('.' :: (fs ++ rest)) = '.' :: fs := by
        rw [fractionOf, List.takeWhile_append_of_pos h'.digits, hrest.digits]
        simp [h'.ne_nil]
      rw [List.append_assoc, List.cons_append, List.cons_append, read_digit hc, scan_number,
        List.takeWhile_append_of_pos hds, List.dropWhile_append_of_pos hds]
      simp [hpoint, hfraction]

theorem spells_string {cs : List Char} (hcs : '"' ∉ cs) (rest : List Char) :
    Spells ('"' :: (cs ++ '"' :: rest)) [(.string, String.ofList ('"' :: (cs ++ ['"'])))] rest := by
  refine .reading (by simp) fun pos => ?_
  have hquoteless : ∀ c ∈ cs, (decide (c ≠ '"')) = true := by
    intro c hc
    simpa using fun h : c = '"' => hcs (h ▸ hc)
  have hread : Cursor.read ⟨'"' :: (cs ++ '"' :: rest), pos⟩ =
      scan .string pos ['"'] (cs ++ '"' :: rest) (pos + '"'.utf8Size) := by
    rw [Cursor.read, scan]
    rfl
  rw [hread, scan_string, List.takeWhile_append_of_pos hquoteless,
    List.dropWhile_append_of_pos hquoteless]
  simp

end Roteiro
