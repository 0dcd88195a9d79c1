import Roteiro.Proofs.Token.Scan

/-!
The lexer tiles the source. Each reading skips blanks and comments and then takes at least one
character, or finds the end (`reads_normal`). So the items of a source, tokens and errors alike,
stand one after the other, each on a stretch of whole characters, and between them there are only
blanks and comments (`Lexer.tiles_source`).
-/

namespace Roteiro

open Text String

/-! ### gaps -/

/-- The end of a line: nothing more, or a newline. -/
def EndsLine (cs : List Char) : Prop :=
  cs = [] ∨ ∃ rest, cs = '\n' :: rest

/-- `gap` is nothing but blanks and comments, when `rest` follows it. -/
inductive Skipped : List Char → List Char → Prop
  | nil (rest : List Char) : Skipped [] rest
  | blank {c : Char} {gap rest : List Char} :
      isBlank c = true → Skipped gap rest → Skipped (c :: gap) rest
  | comment {body gap rest : List Char} :
      '\n' ∉ body → EndsLine (gap ++ rest) → Skipped gap rest → Skipped ('#' :: (body ++ gap)) rest

/-- An element of two lists in a row stands in the first one or in the second one. -/
theorem cut_append {α : Type} {xs ys before after : List α} {x : α}
    (h : xs ++ ys = before ++ x :: after) :
    (∃ more, xs = before ++ x :: more) ∨ ∃ more, before = xs ++ more ∧ ys = more ++ x :: after := by
  rcases List.append_eq_append_iff.mp h with ⟨more, hbefore, hys⟩ | ⟨more, hxs, hmore⟩
  · exact .inr ⟨more, hbefore, hys⟩
  · cases more with
    | nil => exact .inr ⟨[], by simpa using hxs.symm, by simpa using hmore.symm⟩
    | cons y more =>
      obtain ⟨rfl, -⟩ := List.cons.inj hmore
      exact .inl ⟨more, hxs⟩

/-- A character of a gap is a blank or belongs to a comment. -/
theorem Skipped.cases {gap rest : List Char} (h : Skipped gap rest) :
    ∀ {before after : List Char} {c : Char}, gap = before ++ c :: after →
      isBlank c = true ∨ ∃ front body back, gap = front ++ '#' :: (body ++ back) ∧ '\n' ∉ body ∧
        EndsLine (back ++ rest) ∧ front.length ≤ before.length ∧
        before.length ≤ front.length + body.length := by
  induction h with
  | nil rest =>
    intro before after c hgap
    simp at hgap
  | @blank b gap rest hb _ ih =>
    intro before after c hgap
    cases before with
    | nil =>
      obtain ⟨rfl, -⟩ := List.cons.inj hgap
      exact .inl hb
    | cons b' before =>
      obtain ⟨rfl, htail⟩ := List.cons.inj hgap
      rcases ih htail with hc | ⟨front, body, back, rfl, hbody, hback, hle, hlt⟩
      · exact .inl hc
      · refine .inr ⟨b :: front, body, back, rfl, hbody, hback, ?_, ?_⟩
        · simpa using hle
        · simp only [List.length_cons]; omega
  | @comment body gap rest hbody hend _ ih =>
    intro before after c hgap
    by_cases hlen : before.length ≤ body.length
    · exact .inr ⟨[], body, gap, rfl, hbody, hend, by simp, by simpa using hlen⟩
    · have hcut : '#' :: body ++ gap = before ++ c :: after := by simpa using hgap
      obtain ⟨before', rfl, hgap'⟩ : ∃ before', before = '#' :: body ++ before' ∧
          gap = before' ++ c :: after := by
        rcases cut_append hcut with ⟨more, hmore⟩ | hafter
        · have hlength := congrArg List.length hmore
          simp only [List.length_cons, List.length_append] at hlength
          omega
        · exact hafter
      rcases ih hgap' with hc | ⟨front, body', back, rfl, hbody', hback, hle, hlt⟩
      · exact .inl hc
      · refine .inr ⟨'#' :: body ++ front, body', back, by simp, hbody', hback, ?_, ?_⟩
        · simp only [List.length_append, List.length_cons]; omega
        · simp only [List.length_append, List.length_cons]; omega

/-! ### one reading -/

/-- What one reading yields that is not the end: a token or an error with the span `span`, and a
token's text is `text`. -/
def IsItem (span : Span) (text : List Char) : Except LexicalError Lexeme → Prop
  | .ok l => l.kind ≠ .eof ∧ l.span = span ∧ l.text = String.ofList text
  | .error e => e.span = span

/-- A reading at byte `pos`, with `cs` ahead: all of it is skipped and the end is found, or a gap is
skipped and a `text` taken. -/
inductive Reads (cs : List Char) (pos : Nat) : Reading → Prop
  | finish : Skipped cs [] →
      Reads cs pos (.ok ⟨.eof, "", ⟨pos + utf8Len cs, 0⟩⟩, ⟨[], pos + utf8Len cs⟩)
  | item {gap text rest : List Char} {result : Except LexicalError Lexeme} {stop : Nat} :
      cs = gap ++ (text ++ rest) → Skipped gap (text ++ rest) → text ≠ [] →
      IsItem ⟨pos + utf8Len gap, utf8Len text⟩ text result →
      stop = pos + utf8Len gap + utf8Len text → Reads cs pos (result, ⟨rest, stop⟩)

namespace Reads

variable {cs : List Char} {pos : Nat} {r : Reading}

theorem blank {c : Char} (hc : isBlank c = true) (h : Reads cs (pos + c.utf8Size) r) :
    Reads (c :: cs) pos r := by
  cases h with
  | finish hs =>
    have stop : pos + c.utf8Size + utf8Len cs = pos + utf8Len (c :: cs) := by simp; omega
    rw [stop]
    exact .finish (.blank hc hs)
  | @item gap text rest result stop hcs hs ht hi hstop =>
    have start : pos + c.utf8Size + utf8Len gap = pos + utf8Len (c :: gap) := by simp; omega
    rw [start] at hi hstop
    exact .item (by simp [hcs]) (.blank hc hs) ht hi hstop

theorem comment {body : List Char} (hbody : '\n' ∉ body) (hend : EndsLine cs)
    (h : Reads cs (pos + utf8Len ('#' :: body)) r) : Reads ('#' :: (body ++ cs)) pos r := by
  cases h with
  | finish hs =>
    have stop : pos + utf8Len ('#' :: body) + utf8Len cs = pos + utf8Len ('#' :: (body ++ cs)) := by
      simp; omega
    rw [stop]
    exact .finish (.comment hbody (by simpa using hend) hs)
  | @item gap text rest result stop hcs hs ht hi hstop =>
    have start : pos + utf8Len ('#' :: body) + utf8Len gap =
        pos + utf8Len ('#' :: (body ++ gap)) := by simp; omega
    rw [start] at hi hstop
    exact .item (by simp [hcs]) (.comment hbody (hcs ▸ hend) hs) ht hi hstop

/-- A reading that skips nothing. -/
theorem here {text rest : List Char} {result : Except LexicalError Lexeme} {stop : Nat}
    (ht : text ≠ []) (hi : IsItem ⟨pos, utf8Len text⟩ text result)
    (hstop : stop = pos + utf8Len text) : Reads (text ++ rest) pos (result, ⟨rest, stop⟩) :=
  @Reads.item _ _ [] text rest result stop rfl (.nil _) ht (by simpa using hi) (by simpa using hstop)

end Reads

/-- The span of a text that starts at `start`. -/
theorem Span.between_add (start length : Nat) : Span.between start (start + length) = ⟨start, length⟩ := by
  simp [Span.between]

theorem Kind.ofWord_ne_eof (word : String) : Kind.ofWord word ≠ .eof := by
  unfold Kind.ofWord
  split <;> simp

theorem reads_identifier (c : Char) (cs : List Char) (pos : Nat) :
    Reads (c :: cs) pos (scan .identifier pos [c] cs (pos + c.utf8Size)) := by
  rw [scan_identifier]
  have hcs : c :: cs = (c :: cs.takeWhile continuesIdentifier) ++
      cs.dropWhile continuesIdentifier := by simp
  have stop : pos + c.utf8Size + utf8Len (cs.takeWhile continuesIdentifier) =
      pos + utf8Len (c :: cs.takeWhile continuesIdentifier) := by simp; omega
  rw [hcs]
  refine Reads.here (by simp) ⟨Kind.ofWord_ne_eof _, ?_, by simp⟩ ?_
  · simp only [stop, Span.between_add]
  · simp only [stop]

theorem reads_number (c : Char) (cs : List Char) (pos : Nat) :
    Reads (c :: cs) pos (scan .number pos [c] cs (pos + c.utf8Size)) := by
  rw [scan_number]
  have hcs : c :: cs = (c :: (cs.takeWhile Char.isDigit ++
      fractionOf (cs.dropWhile Char.isDigit))) ++
      (cs.dropWhile Char.isDigit).drop (fractionOf (cs.dropWhile Char.isDigit)).length := by
    rw [List.cons_append, List.append_assoc, fractionOf_append_drop,
      List.takeWhile_append_dropWhile]
  have stop : pos + c.utf8Size + utf8Len (cs.takeWhile Char.isDigit ++
      fractionOf (cs.dropWhile Char.isDigit)) =
      pos + utf8Len (c :: (cs.takeWhile Char.isDigit ++
        fractionOf (cs.dropWhile Char.isDigit))) := by
    rw [utf8Len_cons]; omega
  rw [hcs]
  refine Reads.here (by simp) ⟨by simp, ?_, by simp⟩ ?_
  · simp only [stop, Span.between_add]
  · simp only [stop]

theorem reads_string (c : Char) (cs : List Char) (pos : Nat) :
    Reads (c :: cs) pos (scan .string pos [c] cs (pos + c.utf8Size)) := by
  rw [scan_string]
  have hcs := List.takeWhile_append_dropWhile (p := (· ≠ '"')) (l := cs)
  dsimp only
  rcases hrest : cs.dropWhile (· ≠ '"') with _ | ⟨quote, rest⟩
  · have stop : pos + c.utf8Size + utf8Len cs = pos + utf8Len (c :: cs) := by simp; omega
    have hall : c :: cs = (c :: cs) ++ [] := by simp
    rw [hall]
    refine Reads.here (by simp) ?_ ?_
    · simp only [stop, Span.between_add, IsItem]
    · simp only [stop]
  · rw [hrest] at hcs
    generalize cs.takeWhile (· ≠ '"') = inner at hcs ⊢
    have stop : pos + c.utf8Size + utf8Len inner + quote.utf8Size =
        pos + utf8Len (c :: (inner ++ [quote])) := by simp; omega
    have hall : c :: cs = (c :: (inner ++ [quote])) ++ rest := by simp [← hcs]
    rw [hall]
    refine Reads.here (by simp) ⟨by simp, ?_, by simp⟩ ?_
    · simp only [stop, Span.between_add]
    · simp only [stop]

theorem Opening.utf8Size_of_ofChar? {first : Opening} {c : Char}
    (h : Opening.ofChar? c = some first) : c.utf8Size = 1 := by
  unfold Opening.ofChar? at h
  split at h <;> simp_all <;> rfl

theorem reads_operator (first : Opening) {c : Char} (hc : Opening.ofChar? c = some first)
    (cs : List Char) (pos : Nat) :
    Reads (c :: cs) pos (scan (.operator first) pos [c] cs (pos + c.utf8Size)) := by
  have size := Opening.utf8Size_of_ofChar? hc
  have alone : ∀ rest, Reads (c :: rest) pos (first.reading [c] pos, ⟨rest, pos + c.utf8Size⟩) := by
    intro rest
    have hall : c :: rest = [c] ++ rest := rfl
    rw [hall]
    refine Reads.here (by simp) ?_ (by simp)
    unfold Opening.reading
    cases first.alone? with
    | none => simp [IsItem, size]
    | some s => simp [IsItem, Lexeme.of, Span.between, size]
  cases cs with
  | nil => exact alone []
  | cons d ds =>
    rw [scan]
    by_cases hd : d = '='
    · subst hd
      have equal : '='.utf8Size = 1 := rfl
      have hall : c :: '=' :: ds = [c, '='] ++ ds := rfl
      rw [if_pos rfl, hall]
      have length : pos + 1 + 1 - pos = 2 := by omega
      refine Reads.here (by simp) ?_ ?_
      · simp [IsItem, Lexeme.of, Span.between, size, equal, length]
      · simp [size, equal]
    · rw [if_neg hd]
      exact alone (d :: ds)

/-- A comment is skipped up to the end of its line. -/
theorem scan_comment (start : Nat) (taken cs : List Char) (pos : Nat) :
    ∃ body rest, cs = body ++ rest ∧ '\n' ∉ body ∧ EndsLine rest ∧
      scan .comment start taken cs pos = scan .normal start taken rest (pos + utf8Len body) := by
  induction cs generalizing pos with
  | nil => exact ⟨[], [], rfl, by simp, .inl rfl, rfl⟩
  | cons c cs ih =>
    by_cases hc : c = '\n'
    · subst hc
      exact ⟨[], '\n' :: cs, rfl, by simp, .inr ⟨cs, rfl⟩, rfl⟩
    · obtain ⟨body, rest, rfl, hbody, hrest, hscan⟩ := ih (pos + c.utf8Size)
      refine ⟨c :: body, rest, rfl, ?_, hrest, ?_⟩
      · simpa [hbody] using fun h => hc h.symm
      · rw [scan, if_neg hc, hscan]
        congr 1
        simp; omega

/-- **One reading** skips blanks and comments and takes a text, or finds the end. -/
theorem reads_normal (cs : List Char) (start : Nat) (taken : List Char) (pos : Nat) :
    Reads cs pos (scan .normal start taken cs pos) := by
  -- A comment is skipped as a whole, so the induction is on the number of characters.
  induction hn : cs.length using Nat.strong_induction_on generalizing cs start taken pos with
  | _ n ih =>
    cases cs with
    | nil =>
      have hend : Reads [] pos _ := .finish (Skipped.nil [])
      simpa [scan, Lexeme.of, Span.between] using hend
    | cons c cs =>
      rw [scan]
      split
      · have hall : c :: cs = [c] ++ cs := rfl
        rw [hall]
        exact Reads.here (by simp) (by simp [IsItem, Lexeme.of, Span.between]) (by simp)
      · split
        · rename_i first hfirst
          exact reads_operator first hfirst cs pos
        · split_ifs with hquote hhash hdigit hword hblank
          · exact reads_string c cs pos
          · obtain ⟨body, rest, rfl, hbody, hrest, hscan⟩ :=
              scan_comment pos [] cs (pos + c.utf8Size)
            subst hhash
            rw [hscan]
            refine Reads.comment hbody hrest ?_
            have stop : pos + '#'.utf8Size + utf8Len body = pos + utf8Len ('#' :: body) := by
              simp; omega
            rw [stop]
            exact ih rest.length (by simp at hn; omega) rest _ _ _ rfl
          · exact reads_number c cs pos
          · exact reads_identifier c cs pos
          · exact Reads.blank hblank (ih cs.length (by simp at hn; omega) cs _ _ _ rfl)
          · have hall : c :: cs = [c] ++ cs := rfl
            rw [hall]
            exact Reads.here (by simp) (by simp [IsItem, Span.between]) (by simp)

/-! ### all readings -/

/-- Where a token or an error stands. -/
def spanOf : Except LexicalError Token → Span
  | .ok t => t.span
  | .error e => e.span

/-- The lexer after a number of calls. -/
def Lexer.after : Lexer → Nat → Lexer
  | lexer, 0 => lexer
  | lexer, n + 1 => lexer.next.2.after n

/-- The answer to a call, the first one having the number zero. -/
def Lexer.answer (lexer : Lexer) (n : Nat) : Except LexicalError Token :=
  (lexer.after n).next.1

/-- Items that tile the characters `cs`, which stand from byte `pos` on. -/
inductive Tiles : List Char → Nat → List (Except LexicalError Token) → Prop
  | finish {cs : List Char} {pos : Nat} : Skipped cs [] → Tiles cs pos []
  | item {gap text rest : List Char} {pos : Nat} {i : Except LexicalError Token}
      {items : List (Except LexicalError Token)} :
      Skipped gap (text ++ rest) → text ≠ [] →
      spanOf i = ⟨pos + utf8Len gap, utf8Len text⟩ →
      (∀ t, i = .ok t → t.kind ≠ .eof ∧ t.lexeme = String.ofList text) →
      Tiles rest (pos + utf8Len gap + utf8Len text) items →
      Tiles (gap ++ (text ++ rest)) pos (i :: items)

namespace Tiles

variable {cs : List Char} {pos : Nat} {items : List (Except LexicalError Token)}

theorem unfinished (h : Tiles cs pos items) : ∀ t, .ok t ∈ items → t.kind ≠ .eof := by
  induction h with
  | finish _ => simp
  | item _ _ _ hi _ ih =>
    intro t ht
    rcases List.mem_cons.mp ht with ht | ht
    · exact (hi t ht.symm).1
    · exact ih t ht

theorem nonempty (h : Tiles cs pos items) : ∀ i ∈ items, 0 < (spanOf i).length := by
  induction h with
  | finish _ => simp
  | @item gap text rest pos i items _ ht hs _ _ ih =>
    intro j hj
    rcases List.mem_cons.mp hj with rfl | hj
    · rw [hs]
      obtain ⟨c, cs, rfl⟩ := List.exists_cons_of_ne_nil ht
      have := c.utf8Size_pos
      simp only [utf8Len_cons]
      omega
    · exact ih j hj

theorem start_le (h : Tiles cs pos items) : ∀ i ∈ items, pos ≤ (spanOf i).start := by
  induction h with
  | finish _ => simp
  | @item gap text rest pos i items _ _ hs _ _ ih =>
    intro j hj
    rcases List.mem_cons.mp hj with rfl | hj
    · rw [hs]; simp
    · have := ih j hj; omega

theorem ordered (h : Tiles cs pos items) :
    items.Pairwise fun i j => (spanOf i).stop ≤ (spanOf j).start := by
  induction h with
  | finish _ => exact .nil
  | @item gap text rest pos i items _ _ hs _ hrest ih =>
    refine .cons (fun j hj => ?_) ih
    have := hrest.start_le j hj
    rw [hs]
    simpa [Span.stop] using this

theorem slices (h : Tiles cs pos items) : ∀ i ∈ items, ∃ before text after,
    cs = before ++ (text ++ after) ∧ (spanOf i).start = pos + utf8Len before ∧
      (spanOf i).length = utf8Len text ∧ ∀ t, i = .ok t → t.lexeme = String.ofList text := by
  induction h with
  | finish _ => simp
  | @item gap text rest pos i items _ _ hs hi _ ih =>
    intro j hj
    rcases List.mem_cons.mp hj with rfl | hj
    · exact ⟨gap, text, rest, rfl, by rw [hs], by rw [hs], fun t ht => (hi t ht).2⟩
    · obtain ⟨before, text', after, rfl, hstart, hlength, hlexeme⟩ := ih j hj
      refine ⟨gap ++ (text ++ before), text', after, by simp, ?_, hlength, hlexeme⟩
      rw [hstart]
      simp only [utf8Len_append]
      omega

/-- A character that no item covers is a blank or belongs to a comment, and no item covers any
character of that comment. -/
theorem gaps (h : Tiles cs pos items) : ∀ before c after, cs = before ++ c :: after →
    (∀ i ∈ items, ¬((spanOf i).start ≤ pos + utf8Len before ∧
      pos + utf8Len before < (spanOf i).stop)) →
    isBlank c = true ∨ ∃ front body back, cs = front ++ '#' :: (body ++ back) ∧ '\n' ∉ body ∧
      EndsLine back ∧ front.length ≤ before.length ∧
      before.length ≤ front.length + body.length ∧
      ∀ i ∈ items, (spanOf i).stop ≤ pos + utf8Len front ∨
        pos + utf8Len front + utf8Len ('#' :: body) ≤ (spanOf i).start := by
  induction h with
  | finish hs =>
    intro before c after hcs _
    rcases hs.cases hcs with hc | ⟨front, body, back, hcs', hbody, hback, hle, hlt⟩
    · exact .inl hc
    · exact .inr ⟨front, body, back, hcs', hbody, by simpa using hback, hle, hlt, by simp⟩
  | @item gap text rest pos i items hgap ht hs hi hrest ih =>
    intro before c after hcs hfree
    -- The character stands in the gap, in the text, which the item covers, or after it.
    rcases cut_append hcs with ⟨more, hmore⟩ | ⟨before₁, rfl, hcs₁⟩
    · rcases hgap.cases hmore with hc | ⟨front, body, back, rfl, hbody, hback, hle, hlt⟩
      · exact .inl hc
      · refine .inr ⟨front, body, back ++ (text ++ rest), by simp, hbody, hback, hle, hlt, ?_⟩
        have hfirst : ∀ j ∈ i :: items, pos + utf8Len front + utf8Len ('#' :: body) ≤
            (spanOf j).start := by
          intro j hj
          simp only [utf8Len_append, utf8Len_cons] at hs hrest ⊢
          rcases List.mem_cons.mp hj with rfl | hj
          · rw [hs]; dsimp only; omega
          · have := hrest.start_le j hj; omega
        exact fun j hj => .inr (hfirst j hj)
    · rcases cut_append hcs₁ with ⟨more, rfl⟩ | ⟨before₂, rfl, hcs₂⟩
      · exfalso
        have := c.utf8Size_pos
        apply hfree i (List.mem_cons_self ..)
        rw [hs]
        simp only [Span.stop, utf8Len_append, utf8Len_cons]
        omega
      · have hfree' : ∀ j ∈ items, ¬((spanOf j).start ≤ pos + utf8Len gap + utf8Len text +
            utf8Len before₂ ∧ pos + utf8Len gap + utf8Len text + utf8Len before₂ <
              (spanOf j).stop) := by
          intro j hj
          simpa [Nat.add_assoc] using hfree j (List.mem_cons_of_mem i hj)
        rcases ih before₂ c after hcs₂ hfree' with hc |
          ⟨front, body, back, rfl, hbody, hback, hle, hlt, hapart⟩
        · exact .inl hc
        · refine .inr ⟨gap ++ (text ++ front), body, back, by simp, hbody, hback, ?_, ?_, ?_⟩
          · simp only [List.length_append]; omega
          · simp only [List.length_append]; omega
          · intro j hj
            simp only [utf8Len_append]
            rcases List.mem_cons.mp hj with rfl | hj
            · rw [hs]
              simp only [Span.stop]
              omega
            · have := hapart j hj
              omega

end Tiles

/-! ### the lexer -/

namespace Lexer

theorem answer_succ (lexer : Lexer) (n : Nat) : lexer.answer (n + 1) = lexer.next.2.answer n := rfl

theorem answers_succ (lexer : Lexer) (n : Nat) :
    (List.range (n + 1)).map lexer.answer =
      lexer.next.1 :: (List.range n).map lexer.next.2.answer := by
  rw [List.range_succ_eq_map, List.map_cons, List.map_map]
  rfl

/-- The end of a source, as the lexer tells it. -/
def finish (lexer : Lexer) (pos : Nat) : Token :=
  ⟨.eof, "", ⟨pos, 0⟩, lexer.lines.lineOf ⟨pos, 0⟩⟩

/-- Once the source is used up, every call tells the end. -/
theorem answer_of_nil (lines : Lines) (pos n : Nat) :
    (Lexer.mk lines ⟨[], pos⟩).answer n = .ok ((Lexer.mk lines ⟨[], pos⟩).finish pos) := by
  have hnext : (Lexer.mk lines ⟨[], pos⟩).next =
      (.ok ((Lexer.mk lines ⟨[], pos⟩).finish pos), ⟨lines, ⟨[], pos⟩⟩) := by
    simp [next, Cursor.read, scan, Lexeme.of, Span.between, Except.map, finish]
  induction n with
  | zero => exact congrArg Prod.fst hnext
  | succ n ih => rw [answer_succ, hnext, ih]

/-- The next item is the end, and stays it, or it stands after a gap. -/
theorem next_cases (lines : Lines) (cs : List Char) (pos : Nat) :
    (Skipped cs [] ∧ (Lexer.mk lines ⟨cs, pos⟩).next =
        (.ok ((Lexer.mk lines ⟨cs, pos⟩).finish (pos + utf8Len cs)),
          ⟨lines, ⟨[], pos + utf8Len cs⟩⟩)) ∨
      ∃ gap text rest i, cs = gap ++ (text ++ rest) ∧ Skipped gap (text ++ rest) ∧ text ≠ [] ∧
        spanOf i = ⟨pos + utf8Len gap, utf8Len text⟩ ∧
        (∀ t, i = .ok t → t.kind ≠ .eof ∧ t.lexeme = String.ofList text) ∧
        (Lexer.mk lines ⟨cs, pos⟩).next =
          (i, ⟨lines, ⟨rest, pos + utf8Len gap + utf8Len text⟩⟩) := by
  have hread : Reads cs pos (Cursor.read ⟨cs, pos⟩) := reads_normal cs pos [] pos
  generalize hr : Cursor.read ⟨cs, pos⟩ = r at hread
  cases hread with
  | finish hs => exact .inl ⟨hs, by simp [next, hr, Except.map, finish]⟩
  | @item gap text rest result stop hcs hs ht hi hstop =>
    refine .inr ⟨gap, text, rest,
      result.map fun l => ⟨l.kind, l.text, l.span, lines.lineOf l.span⟩, hcs, hs, ht, ?_, ?_, ?_⟩
    · cases result with
      | error e => exact hi
      | ok l => exact hi.2.1
    · cases result with
      | error e => simp [Except.map]
      | ok l =>
        intro t ht'
        obtain rfl := Except.ok.inj ht'
        exact ⟨hi.1, hi.2.2⟩
    · simp [next, hr, hstop]

/-- From anywhere in a source, some calls tile what is left and all later ones tell the end; the
items are those of `itemsWithin` as long as there is fuel for each character and the end. -/
theorem answers_tile (lines : Lines) (cs : List Char) (pos fuel : Nat) (hfuel : cs.length < fuel) :
    ∃ n, Tiles cs pos ((List.range n).map (Lexer.mk lines ⟨cs, pos⟩).answer) ∧
      (∀ k, n ≤ k → (Lexer.mk lines ⟨cs, pos⟩).answer k =
        .ok ((Lexer.mk lines ⟨cs, pos⟩).finish (pos + utf8Len cs))) ∧
      (itemsWithin fuel ⟨lines, ⟨cs, pos⟩⟩).1 =
        (List.range (n + 1)).map (Lexer.mk lines ⟨cs, pos⟩).answer := by
  induction fuel generalizing cs pos with
  | zero => omega
  | succ fuel ih =>
    rcases next_cases lines cs pos with ⟨hs, hnext⟩ |
      ⟨gap, text, rest, i, rfl, hs, ht, hspan, hi, hnext⟩
    · refine ⟨0, .finish hs, fun k _ => ?_, ?_⟩
      · cases k with
        | zero => exact congrArg Prod.fst hnext
        | succ k =>
          rw [answer_succ, hnext, answer_of_nil]
          rfl
      · rw [answers_succ, itemsWithin, hnext]
        simp [finish]
    · have hshort : rest.length < fuel := by
        have := List.length_pos_iff.mpr ht
        simp only [List.length_append] at hfuel
        omega
      obtain ⟨n, htiles, hend, hitems⟩ :=
        ih rest (pos + utf8Len gap + utf8Len text) hshort
      have hlength : pos + utf8Len gap + utf8Len text + utf8Len rest =
          pos + utf8Len (gap ++ (text ++ rest)) := by
        simp only [utf8Len_append]; omega
      refine ⟨n + 1, ?_, ?_, ?_⟩
      · rw [answers_succ, hnext]
        exact .item hs ht hspan hi htiles
      · intro k hk
        obtain ⟨k, rfl⟩ : ∃ j, k = j + 1 := ⟨k - 1, by omega⟩
        rw [answer_succ, hnext, hend k (by omega), hlength]
        rfl
      · rw [answers_succ, hnext, ← hitems, itemsWithin, hnext]
        cases i with
        | error e => rfl
        | ok t => simp [(hi t rfl).1]

/-- The tokens are read to the end exactly if none of the items is an error. -/
theorem tokensWithin_eq_ok_iff (fuel : Nat) (lexer : Lexer) (ts : List Token) :
    (lexer.tokensWithin fuel).1 = .ok ts ↔ (lexer.itemsWithin fuel).1 = ts.map .ok := by
  induction fuel generalizing lexer ts with
  | zero => cases ts <;> simp [tokensWithin, itemsWithin]
  | succ fuel ih =>
    rw [tokensWithin, itemsWithin]
    rcases lexer.next with ⟨_ | t, after⟩
    · cases ts <;> simp
    · by_cases ht : t.kind = .eof
      · rcases ts with _ | ⟨t', _ | ⟨t'', ts⟩⟩ <;> simp [ht]
      · cases ts with
        | nil => cases h : (tokensWithin fuel after).1 <;> simp [ht, h, Except.map]
        | cons t' ts =>
          have hts := ih after ts
          rcases h : (tokensWithin fuel after).1 with e | ts'
          · rw [h] at hts
            simpa [ht, h, Except.map] using fun _ hitems => hts.mpr hitems
          · rw [h, Except.ok.injEq] at hts
            simp only [ht, h, Except.map, if_false, Except.ok.injEq, List.cons.injEq, hts,
              List.map_cons]

end Lexer

/-- `ts` are the tokens of a source before its end, which is told by `finish`. -/
structure TokensOf (source : String) (ts : List Token) (finish : Token) : Prop where
  items : tokenize source = (ts ++ [finish]).map .ok
  finish : finish.kind = .eof
  unfinished : ∀ t ∈ ts, t.kind ≠ .eof

/-- The items of a source end with the end, which stands nowhere else. -/
theorem tokenize_eq (source : String) : ∃ items finish, tokenize source = items ++ [.ok finish] ∧
    finish.kind = .eof ∧ ∀ t, .ok t ∈ items → t.kind ≠ .eof := by
  obtain ⟨n, htiles, hend, hitems⟩ := Lexer.answers_tile (.ofText source) source.toList 0
    (source.toList.length + 1) (by omega)
  refine ⟨_, (Lexer.ofText source).finish (0 + utf8Len source.toList), ?_, rfl, htiles.unfinished⟩
  calc tokenize source
    _ = (List.range (n + 1)).map (Lexer.ofText source).answer := hitems
    _ = (List.range n).map (Lexer.ofText source).answer ++ [(Lexer.ofText source).answer n] := by
        rw [List.range_succ, List.map_append, List.map_singleton]
    _ = _ := congrArg (fun i => _ ++ [i]) (hend n le_rfl)

/-- A source without lexical errors has tokens. -/
theorem TokensOf.of_tokens {source : String} {list : List Token}
    (h : (Lexer.ofText source).tokens.1 = .ok list) :
    ∃ ts finish, list = ts ++ [finish] ∧ TokensOf source ts finish := by
  have hmap : tokenize source = list.map .ok := (Lexer.tokensWithin_eq_ok_iff ..).mp h
  obtain ⟨items, finish, hitems, hfinish, hunfinished⟩ := tokenize_eq source
  obtain ⟨ts, last, rfl, rfl, hlast⟩ := List.map_eq_append_iff.mp (hmap.symm.trans hitems)
  obtain rfl : last = [finish] := by simpa [List.map_eq_singleton_iff] using hlast
  exact ⟨ts, finish, rfl, hmap, hfinish, fun t ht => hunfinished t (List.mem_map_of_mem ht)⟩

/-! ### the tiling -/

/-- The characters `'#' :: body` after `front` are a comment: it runs to the end of its line, and no
item covers any of its characters. -/
structure IsComment (source : String) (items : List (Except LexicalError Token))
    (front body back : List Char) : Prop where
  text : source.toList = front ++ '#' :: (body ++ back)
  line : '\n' ∉ body
  ends : EndsLine back
  free : ∀ i ∈ items, (spanOf i).stop ≤ utf8Len front ∨
    utf8Len front + utf8Len ('#' :: body) ≤ (spanOf i).start

/-- Tokens and errors that tile a source. -/
structure Tiling (source : String) (items : List (Except LexicalError Token)) : Prop where
  /-- None of them is the end. -/
  unfinished : ∀ t, .ok t ∈ items → t.kind ≠ .eof
  nonempty : ∀ i ∈ items, (spanOf i).start < (spanOf i).stop
  /-- They are disjoint and increasing. -/
  ordered : items.Pairwise fun i j => (spanOf i).stop ≤ (spanOf j).start
  inside : ∀ i ∈ items, (spanOf i).stop ≤ source.utf8ByteSize
  /-- They start and stop between characters. -/
  valid : ∀ i ∈ items, Pos.Raw.IsValid source ⟨(spanOf i).start⟩ ∧
    Pos.Raw.IsValid source ⟨(spanOf i).stop⟩
  /-- The text of a token is what its span cuts out of the source. -/
  slices : ∀ t, .ok t ∈ items → ∃ before after, source = before ++ t.lexeme ++ after ∧
    before.utf8ByteSize = t.span.start ∧ t.lexeme.utf8ByteSize = t.span.length
  /-- A character that no span covers is a blank or belongs to a comment. -/
  gaps : ∀ before c after, source.toList = before ++ c :: after →
    (∀ i ∈ items, ¬((spanOf i).start ≤ utf8Len before ∧ utf8Len before < (spanOf i).stop)) →
    isBlank c = true ∨ ∃ front body back, IsComment source items front body back ∧
      front.length ≤ before.length ∧ before.length ≤ front.length + body.length

theorem Tiles.tiling {source : String} {items : List (Except LexicalError Token)}
    (h : Tiles source.toList 0 items) : Tiling source items := by
  have slices : ∀ i ∈ items, ∃ before text after : String, source = before ++ text ++ after ∧
      (spanOf i).start = before.utf8ByteSize ∧ (spanOf i).length = text.utf8ByteSize ∧
      ∀ t, i = .ok t → t.lexeme = text := by
    intro i hi
    obtain ⟨before, text, after, hsource, hstart, hlength, hlexeme⟩ := h.slices i hi
    refine ⟨.ofList before, .ofList text, .ofList after, ?_, ?_, ?_, hlexeme⟩
    · rw [← String.ofList_append, ← String.ofList_append, List.append_assoc, ← hsource,
        String.ofList_toList]
    · simpa [String.utf8ByteSize_ofList] using hstart
    · simpa [String.utf8ByteSize_ofList] using hlength
  refine ⟨h.unfinished, ?_, h.ordered, ?_, ?_, ?_, ?_⟩
  · intro i hi
    have := h.nonempty i hi
    simp only [Span.stop]
    omega
  · intro i hi
    obtain ⟨before, text, after, rfl, hstart, hlength, -⟩ := slices i hi
    simp only [Span.stop, hstart, hlength, String.utf8ByteSize_append]
    omega
  · intro i hi
    obtain ⟨before, text, after, rfl, hstart, hlength, -⟩ := slices i hi
    constructor
    · refine Pos.Raw.isValid_iff_exists_append.mpr ⟨before, text ++ after, ?_, ?_⟩
      · rw [String.append_assoc]
      · simp [hstart, Pos.Raw.ext_iff]
    · refine Pos.Raw.isValid_iff_exists_append.mpr ⟨before ++ text, after, rfl, ?_⟩
      simp [Span.stop, hstart, hlength, Pos.Raw.ext_iff]
  · intro t ht
    obtain ⟨before, text, after, hsource, hstart, hlength, hlexeme⟩ := slices _ ht
    obtain rfl := hlexeme t rfl
    exact ⟨before, after, hsource, hstart.symm, hlength.symm⟩
  · intro before c after hsource hfree
    rcases h.gaps before c after hsource (by simpa using hfree) with hc |
      ⟨front, body, back, htext, hbody, hback, hle, hlt, hapart⟩
    · exact .inl hc
    · exact .inr ⟨front, body, back, ⟨htext, hbody, hback, by simpa using hapart⟩, hle, hlt⟩

/-- **The lexer tiles the source.** Some finite number of calls is answered by tokens and errors
whose spans tile the source; from then on every call is answered by the same token, the end, whose
empty span stands at the end of the source. The list of all items is made of these answers. -/
theorem Lexer.tiles_source (source : String) :
    ∃ (n : Nat) (finish : Token),
      Tiling source ((List.range n).map (Lexer.ofText source).answer) ∧
      (∀ k, n ≤ k → (Lexer.ofText source).answer k = .ok finish) ∧
      finish.kind = .eof ∧ finish.span = ⟨source.utf8ByteSize, 0⟩ ∧
      tokenize source = (List.range (n + 1)).map (Lexer.ofText source).answer := by
  obtain ⟨n, htiles, hend, hitems⟩ := answers_tile (.ofText source) source.toList 0
    (source.toList.length + 1) (by omega)
  have hlength : 0 + utf8Len source.toList = source.utf8ByteSize := by
    rw [Nat.zero_add, ← String.utf8ByteSize_ofList, String.ofList_toList]
  refine ⟨n, _, htiles.tiling, hend, rfl, ?_, hitems⟩
  rw [← hlength]
  rfl

end Roteiro
