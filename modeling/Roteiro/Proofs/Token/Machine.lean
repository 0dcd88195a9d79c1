import Roteiro.Proofs.Token.Tiling

/-!
The lexer as a machine. Between two characters it is in a state that knows where its token began.
Characters that were handed back wait on a stack, in front of those of the source that were not
reached yet. A state that ends a token emits its kind and span and hands back up to two characters;
the text of the token is then cut out of the source.

Whatever is taken and handed back, what waits and what was not reached are the characters of the
source from some byte on, each in its place (`Reader.Stands`). So the machine reads as the modes
do, which only know what is left of the source (`Reader.Stands.reads_scan`), and it answers every
call as the lexer does (`Reader.answer_eq`).
-/

namespace Roteiro

open Text String

/-! ### characters in their places -/

/-- A character and the byte where it stands. -/
structure Located where
  char : Char
  offset : Nat

/-- The byte after a character. -/
def Located.stop (c : Located) : Nat :=
  c.offset + c.char.utf8Size

@[simp] theorem Located.stop_mk (c : Char) (pos : Nat) : stop ⟨c, pos⟩ = pos + c.utf8Size := rfl

/-- Characters of which the first stands at the byte `pos`. -/
def locate : List Char → Nat → List Located
  | [], _ => []
  | c :: cs, pos => ⟨c, pos⟩ :: locate cs (pos + c.utf8Size)

theorem locate_append (cs ds : List Char) (pos : Nat) :
    locate (cs ++ ds) pos = locate cs pos ++ locate ds (pos + utf8Len cs) := by
  induction cs generalizing pos with
  | nil => rfl
  | cons c cs ih => simp [locate, ih, Nat.add_assoc, Nat.add_comm c.utf8Size]

theorem locate_bounds {cs : List Char} {pos : Nat} {c : Located} (h : c ∈ locate cs pos) :
    pos ≤ c.offset ∧ c.offset < pos + utf8Len cs := by
  induction cs generalizing pos with
  | nil => cases h
  | cons d cs ih =>
    have size := d.utf8Size_pos
    rw [utf8Len_cons]
    rcases List.mem_cons.1 h with rfl | later
    · dsimp only
      omega
    · have := ih later
      omega

theorem map_char_locate (cs : List Char) (pos : Nat) : (locate cs pos).map Located.char = cs := by
  induction cs generalizing pos with
  | nil => rfl
  | cons c cs ih => simp [locate, ih]

/-- The characters of a source in a span. -/
def Span.slice (span : Span) (source : List Char) : List Char :=
  ((locate source 0).filter fun c => span.start ≤ c.offset && c.offset < span.stop).map Located.char

theorem Span.slice_between (before text after : List Char) :
    (Span.between (utf8Len before) (utf8Len before + utf8Len text)).slice
      (before ++ text ++ after) = text := by
  have stop : (Span.between (utf8Len before) (utf8Len before + utf8Len text)).stop =
      utf8Len before + utf8Len text := by
    unfold Span.between Span.stop
    dsimp only
    omega
  unfold Span.slice
  rw [stop, locate_append, locate_append, List.filter_append, List.filter_append,
    List.filter_eq_nil_iff.2, List.filter_eq_self.2, List.filter_eq_nil_iff.2, List.nil_append,
    List.append_nil, map_char_locate]
  · intro c h
    have := locate_bounds h
    simp [utf8Len_append] at this ⊢
    omega
  · intro c h
    have := locate_bounds h
    simp [Span.between] at this ⊢
    omega
  · intro c h
    have := locate_bounds h
    simp [Span.between] at this ⊢
    omega

/-! ### the machine -/

namespace Reader

/-- What the machine is in the middle of, and where its token began. -/
inductive State where
  | normal
  | identifier (start : Nat)
  | number (start : Nat)
  | numberDot (start : Nat) (dot : Located)
  | fraction (start : Nat)
  | string (start : Nat)
  | comment
  | operator (first : Opening) (start : Nat)

/-- The kind and the span of a token, or an error. -/
abbrev Emitted := Except LexicalError (Kind × Span)

/-- What a state does with a character or with the end of the source. -/
inductive Transition where
  | stay
  | goTo (state : State)
  /-- Ends a token. The characters are handed back, the next one first. -/
  | emit (state : State) (emitted : Emitted) (back : List Located)

namespace State

/-- What is done between tokens. -/
def between (size : Nat) : Option Located → Transition
  | none => .emit .normal (.ok (.eof, .between size size)) []
  | some c =>
    match Symbol.ofChar? c.char with
    | some s => .emit .normal (.ok (.symbol s, .between c.offset c.stop)) []
    | none =>
      match Opening.ofChar? c.char with
      | some first => .goTo (.operator first c.offset)
      | none =>
        if c.char = '"' then .goTo (.string c.offset)
        else if c.char = '#' then .goTo .comment
        else if c.char.isDigit then .goTo (.number c.offset)
        else if startsIdentifier c.char then .goTo (.identifier c.offset)
        else if isBlank c.char then .stay
        else .emit .normal (.error ⟨.unrecognized c.char, .between c.offset c.stop⟩) []

/-- The word from a byte of the source up to another. -/
def word (source : List Char) (start stop : Nat) : Emitted :=
  .ok (.ofWord (String.ofList ((Span.between start stop).slice source)), .between start stop)

def numeral (start stop : Nat) : Emitted :=
  .ok (.number, .between start stop)

/-- An opening that no equals sign follows. -/
def alone (first : Opening) (start : Nat) : Emitted :=
  match first.alone? with
  | some s => .ok (.symbol s, .between start (start + 1))
  | none => .error ⟨.unrecognized '!', ⟨start, 1⟩⟩

/-- What is done with the next character, or at the end of the source. -/
def execute (source : List Char) : State → Option Located → Transition
  | .normal, ahead => between (utf8Len source) ahead
  | .identifier start, some c =>
    if continuesIdentifier c.char then .stay else .emit .normal (word source start c.offset) [c]
  | .identifier start, none => .emit .normal (word source start (utf8Len source)) []
  | .number start, some c =>
    if c.char.isDigit then .stay
    else if c.char = '.' then .goTo (.numberDot start c)
    else .emit .normal (numeral start c.offset) [c]
  | .number start, none => .emit .normal (numeral start (utf8Len source)) []
  | .numberDot start dot, some c =>
    if c.char.isDigit then .goTo (.fraction start)
    else .emit .normal (numeral start dot.offset) [dot, c]
  | .numberDot start dot, none => .emit .normal (numeral start dot.offset) [dot]
  | .fraction start, some c =>
    if c.char.isDigit then .stay else .emit .normal (numeral start c.offset) [c]
  | .fraction start, none => .emit .normal (numeral start (utf8Len source)) []
  | .string start, some c =>
    if c.char = '"' then .emit .normal (.ok (.string, .between start c.stop)) [] else .stay
  | .string start, none =>
    .emit .normal (.error ⟨.unclosedString, .between start (utf8Len source)⟩) []
  | .comment, some c => if c.char = '\n' then .goTo .normal else .stay
  -- The end is told between tokens.
  | .comment, none => .goTo .normal
  | .operator first start, some c =>
    if c.char = '=' then .emit .normal (.ok (.symbol first.withEqual, .between start c.stop)) []
    else .emit .normal (alone first start) [c]
  | .operator first start, none => .emit .normal (alone first start) []

/-- A comment takes one more step at the end of the source. -/
def weight : State → Nat
  | .comment => 1
  | _ => 0

theorem execute_none (source : List Char) (s : State) :
    (∃ emitted back, s.execute source none = .emit .normal emitted back) ∨
      s = .comment ∧ s.execute source none = .goTo .normal := by
  cases s with
  | comment => exact .inr ⟨rfl, rfl⟩
  | _ => exact .inl ⟨_, _, rfl⟩

end State

end Reader

/-- A lexer between two characters. -/
structure Reader where
  source : List Char
  lines : Lines
  /-- The characters that were not reached yet, and the byte where the first of them stands. -/
  rest : List Char
  offset : Nat
  /-- The characters that were handed back, the next one first. -/
  pending : List Located
  state : Reader.State

namespace Reader

def ofText (source : String) : Reader :=
  ⟨source.toList, .ofText source, source.toList, 0, [], .normal⟩

/-- The next character, and the lexer after it. -/
def nextChar (r : Reader) : Option Located × Reader :=
  match r.pending, r.rest with
  | c :: cs, _ => (some c, { r with pending := cs })
  | [], c :: cs => (some ⟨c, r.offset⟩, { r with rest := cs, offset := r.offset + c.utf8Size })
  | [], [] => (none, r)

/-- The characters ahead: those that wait, and then those that were not reached yet. -/
def ahead (r : Reader) : List Located :=
  r.pending ++ locate r.rest r.offset

theorem nextChar_cases (r : Reader) :
    (r.ahead = [] ∧ r.nextChar = (none, r)) ∨
      ∃ c after, r.ahead = c :: after.ahead ∧ r.nextChar = (some c, after) ∧
        after.source = r.source ∧ after.lines = r.lines ∧ after.state = r.state := by
  obtain ⟨source, lines, rest, offset, pending, state⟩ := r
  cases pending with
  | cons c cs => exact .inr ⟨c, _, rfl, rfl, rfl, rfl, rfl⟩
  | nil =>
    cases rest with
    | cons c cs => exact .inr ⟨_, _, rfl, rfl, rfl, rfl, rfl⟩
    | nil => exact .inl ⟨rfl, rfl⟩

/-- Ends a token: its text is cut out of the source. -/
def emit (r : Reader) (state : State) (emitted : Emitted) (back : List Located) :
    Except LexicalError Token × Reader :=
  (emitted.map fun (kind, span) =>
      ⟨kind, String.ofList (span.slice r.source), span, r.lines.lineOf span⟩,
    { r with state, pending := back ++ r.pending })

/-- How many steps are left at most. -/
def size (r : Reader) : Nat :=
  2 * r.ahead.length + r.state.weight

theorem size_stay {r : Reader} (h : r.state.execute r.source r.nextChar.1 = .stay) :
    r.nextChar.2.size < r.size := by
  rcases r.nextChar_cases with ⟨-, taken⟩ | ⟨c, after, ahead, taken, -, -, state⟩
  · rw [taken] at h
    rcases State.execute_none r.source r.state with ⟨_, _, h'⟩ | ⟨-, h'⟩
    · cases h.symm.trans h'
    · cases h.symm.trans h'
  · rw [taken]
    unfold size
    rw [ahead, state, List.length_cons]
    dsimp only
    omega

theorem size_goTo {r : Reader} {state : State}
    (h : r.state.execute r.source r.nextChar.1 = .goTo state) :
    { r.nextChar.2 with state }.size < r.size := by
  rcases r.nextChar_cases with ⟨none, taken⟩ | ⟨c, after, some, taken, -, -, -⟩
  · rw [taken] at h ⊢
    rcases State.execute_none r.source r.state with ⟨_, _, h'⟩ | ⟨comment, h'⟩
    · cases h.symm.trans h'
    · cases h.symm.trans h'
      unfold size
      rw [comment]
      exact Nat.lt_succ_self _
  · rw [taken]
    have light : state.weight ≤ 1 := by
      cases state with
      | comment => exact Nat.le_refl 1
      | _ => exact Nat.zero_le 1
    unfold size
    change 2 * after.ahead.length + state.weight < _
    rw [some, List.length_cons]
    omega

/-- Steps on to the end of a token or to an error. -/
def next (r : Reader) : Except LexicalError Token × Reader :=
  match _h : r.state.execute r.source r.nextChar.1 with
  | .stay => r.nextChar.2.next
  | .goTo state => { r.nextChar.2 with state }.next
  | .emit state emitted back => r.nextChar.2.emit state emitted back
termination_by r.size
decreasing_by
  · exact size_stay _h
  · exact size_goTo _h

/-- The lexer after a number of calls. -/
def after : Reader → Nat → Reader
  | r, 0 => r
  | r, n + 1 => r.next.2.after n

/-- The answer to a call, the first one having the number zero. -/
def answer (r : Reader) (n : Nat) : Except LexicalError Token :=
  (r.after n).next.1

/-! ### states and modes -/

/-- The state of a machine that has read `before` and the mode that reads on as it does, with the
byte where the token began and the characters of it, last first. -/
inductive State.Reads : State → List Char → Mode → Nat → List Char → Prop
  | normal (before : List Char) (start : Nat) (taken : List Char) :
    Reads .normal before .normal start taken
  | comment (before : List Char) (start : Nat) (taken : List Char) :
    Reads .comment before .comment start taken
  | identifier (prior taken : List Char) :
    Reads (.identifier (utf8Len prior)) (prior ++ taken.reverse) .identifier (utf8Len prior) taken
  | number (prior taken : List Char) :
    Reads (.number (utf8Len prior)) (prior ++ taken.reverse) .number (utf8Len prior) taken
  | numberDot (prior taken : List Char) :
    Reads (.numberDot (utf8Len prior) ⟨'.', utf8Len (prior ++ taken.reverse)⟩)
      (prior ++ taken.reverse ++ ['.']) .numberDot (utf8Len prior) taken
  | fraction (prior taken : List Char) :
    Reads (.fraction (utf8Len prior)) (prior ++ taken.reverse) .fraction (utf8Len prior) taken
  | string (prior taken : List Char) :
    Reads (.string (utf8Len prior)) (prior ++ taken.reverse) .string (utf8Len prior) taken
  | operator {first : Opening} {c : Char} (prior : List Char) : Opening.ofChar? c = some first →
    Reads (.operator first (utf8Len prior)) (prior ++ [c]) (.operator first) (utf8Len prior) [c]

/-- What is emitted, with its text. -/
def Emitted.lexeme (source : List Char) (emitted : Emitted) : Except LexicalError Lexeme :=
  emitted.map fun (kind, span) => ⟨kind, String.ofList (span.slice source), span⟩

theorem slice_taken (prior taken cs : List Char) :
    (Span.between (utf8Len prior) (utf8Len (prior ++ taken.reverse))).slice
        (prior ++ taken.reverse ++ cs) = taken.reverse := by
  rw [utf8Len_append]
  exact Span.slice_between prior taken.reverse cs

theorem Emitted.lexeme_between (kind : Kind) (prior taken cs : List Char) :
    Emitted.lexeme (prior ++ taken.reverse ++ cs)
        (.ok (kind, .between (utf8Len prior) (utf8Len (prior ++ taken.reverse)))) =
      .ok (.of kind taken (utf8Len prior) (utf8Len (prior ++ taken.reverse))) := by
  unfold Emitted.lexeme Lexeme.of Except.map
  dsimp only
  rw [slice_taken]

theorem Emitted.lexeme_word (prior taken cs : List Char) :
    Emitted.lexeme (prior ++ taken.reverse ++ cs)
        (State.word (prior ++ taken.reverse ++ cs) (utf8Len prior)
          (utf8Len (prior ++ taken.reverse))) =
      .ok (.of (.ofWord (String.ofList taken.reverse)) taken (utf8Len prior)
        (utf8Len (prior ++ taken.reverse))) := by
  unfold State.word
  rw [lexeme_between, slice_taken]

/-- A transition of a machine in the state `s`, which has read `before`, leads on to a reading: the
rest of the reading is left to the state that comes next, or the reading ends and the place where it
stops comes after what is handed back. -/
inductive Transition.Leads (s : State) (before : List Char) :
    List Char → Transition → Reading → Prop
  | stay {c : Char} {cs : List Char} {mode : Mode} {start : Nat} {taken : List Char} :
    s.Reads (before ++ [c]) mode start taken →
      Leads s before (c :: cs) .stay (scan mode start taken cs (utf8Len before + c.utf8Size))
  | goTo {t : State} {c : Char} {cs : List Char} {mode : Mode} {start : Nat} {taken : List Char} :
    t.Reads (before ++ [c]) mode start taken →
      Leads s before (c :: cs) (.goTo t) (scan mode start taken cs (utf8Len before + c.utf8Size))
  | goToEnd {t : State} {mode : Mode} {start : Nat} {taken : List Char} :
    t.Reads before mode start taken →
      Leads s before [] (.goTo t) (scan mode start taken [] (utf8Len before))
  | emit {cs place rest : List Char} {emitted : Emitted} {back : List Located} :
    place ++ rest = before ++ cs →
    back ++ (locate cs (utf8Len before)).tail = locate rest (utf8Len place) →
      Leads s before cs (.emit .normal emitted back)
        (emitted.lexeme (before ++ cs), ⟨rest, utf8Len place⟩)

namespace Transition.Leads

variable {s : State} {before cs : List Char} {c : Char} {emitted : Emitted}
  {lexeme : Except LexicalError Lexeme}

theorem atEnd (same : emitted.lexeme before = lexeme) :
    Leads s before [] (.emit .normal emitted []) (lexeme, ⟨[], utf8Len before⟩) := by
  subst same
  have leads : Leads s before [] (.emit .normal emitted [])
      (emitted.lexeme (before ++ []), ⟨[], utf8Len before⟩) := .emit rfl rfl
  rwa [List.append_nil] at leads

/-- The character is handed back. -/
theorem here (same : emitted.lexeme (before ++ c :: cs) = lexeme) :
    Leads s before (c :: cs) (.emit .normal emitted [⟨c, utf8Len before⟩])
      (lexeme, ⟨c :: cs, utf8Len before⟩) :=
  same ▸ .emit rfl rfl

/-- The character is the last of the token. -/
theorem behind (same : emitted.lexeme (before ++ c :: cs) = lexeme) :
    Leads s before (c :: cs) (.emit .normal emitted [])
      (lexeme, ⟨cs, utf8Len before + c.utf8Size⟩) := by
  subst same
  have size : utf8Len before + c.utf8Size = utf8Len (before ++ [c]) := by simp
  rw [size]
  exact .emit (by simp) (by simp [locate])

/-- A character that was taken before is handed back as well. -/
theorem twoBack {d : Char} (same : emitted.lexeme (before ++ d :: cs) = lexeme) :
    Leads s (before ++ [d]) cs
      (.emit .normal emitted
        (⟨d, utf8Len before⟩ :: (locate cs (utf8Len (before ++ [d]))).head?.toList))
      (lexeme, ⟨d :: cs, utf8Len before⟩) := by
  have whole : before ++ [d] ++ cs = before ++ d :: cs := by simp
  rw [← whole] at same
  subst same
  refine .emit whole.symm ?_
  cases cs with
  | nil => rfl
  | cons c cs => simp [locate]

end Transition.Leads

section States

variable (before prior taken cs : List Char) (start : Nat)

theorem normal_leads :
    (State.execute (before ++ cs) .normal (locate cs (utf8Len before)).head?).Leads .normal before
      cs (scan .normal start taken cs (utf8Len before)) := by
  cases cs with
  | nil =>
    rw [scan, List.append_nil]
    have empty := Emitted.lexeme_between .eof before [] []
    simp only [List.reverse_nil, List.append_nil] at empty
    exact .atEnd empty
  | cons c cs =>
    have one (kind : Kind) := Emitted.lexeme_between kind before [c] cs
    simp only [List.reverse_singleton, List.append_assoc, List.singleton_append, utf8Len_append,
      utf8Len_cons, utf8Len_nil, Nat.zero_add] at one
    rw [scan]
    simp only [locate, List.head?_cons, State.execute, State.between]
    cases Symbol.ofChar? c with
    | some s => exact .behind (one (.symbol s))
    | none =>
      cases opening : Opening.ofChar? c with
      | some first => exact .goTo (.operator before opening)
      | none =>
        dsimp only
        split_ifs
        · exact .goTo (.string before [c])
        · exact .goTo (.comment _ _ _)
        · exact .goTo (.number before [c])
        · exact .goTo (.identifier before [c])
        · exact .stay (.normal _ _ _)
        · exact .behind rfl

theorem comment_leads :
    (State.execute (before ++ cs) .comment (locate cs (utf8Len before)).head?).Leads .comment before
      cs (scan .comment start taken cs (utf8Len before)) := by
  cases cs with
  | nil =>
    -- Between tokens the end is told as in a comment.
    have same : scan .comment start taken [] (utf8Len before) =
      scan .normal start taken [] (utf8Len before) := by rw [scan, scan]
    rw [same]
    exact .goToEnd (.normal before start taken)
  | cons c cs =>
    rw [scan]
    simp only [locate, List.head?_cons, State.execute]
    split_ifs
    · exact .goTo (.normal _ _ _)
    · exact .stay (.comment _ _ _)

theorem identifier_leads :
    (State.execute (prior ++ taken.reverse ++ cs) (.identifier (utf8Len prior))
        (locate cs (utf8Len (prior ++ taken.reverse))).head?).Leads
      (.identifier (utf8Len prior)) (prior ++ taken.reverse) cs
      (scan .identifier (utf8Len prior) taken cs (utf8Len (prior ++ taken.reverse))) := by
  have word := Emitted.lexeme_word prior taken cs
  cases cs with
  | nil =>
    rw [List.append_nil] at word ⊢
    rw [scan]
    exact .atEnd word
  | cons c cs =>
    rw [scan]
    simp only [locate, List.head?_cons, State.execute]
    split_ifs
    · exact .stay (by simpa using State.Reads.identifier prior (c :: taken))
    · exact .here word

theorem number_leads :
    (State.execute (prior ++ taken.reverse ++ cs) (.number (utf8Len prior))
        (locate cs (utf8Len (prior ++ taken.reverse))).head?).Leads
      (.number (utf8Len prior)) (prior ++ taken.reverse) cs
      (scan .number (utf8Len prior) taken cs (utf8Len (prior ++ taken.reverse))) := by
  have numeral := Emitted.lexeme_between .number prior taken cs
  cases cs with
  | nil =>
    rw [List.append_nil] at numeral ⊢
    rw [scan]
    exact .atEnd numeral
  | cons c cs =>
    rw [scan]
    simp only [locate, List.head?_cons, State.execute]
    split_ifs with digit point
    · exact .stay (by simpa using State.Reads.number prior (c :: taken))
    · subst point
      exact .goTo (.numberDot prior taken)
    · exact .here numeral

/-- A point that no digit follows is handed back with the character after it. -/
theorem numberDot_leads :
    (State.execute (prior ++ taken.reverse ++ ['.'] ++ cs)
        (.numberDot (utf8Len prior) ⟨'.', utf8Len (prior ++ taken.reverse)⟩)
        (locate cs (utf8Len (prior ++ taken.reverse ++ ['.']))).head?).Leads
      (.numberDot (utf8Len prior) ⟨'.', utf8Len (prior ++ taken.reverse)⟩)
      (prior ++ taken.reverse ++ ['.']) cs
      (scan .numberDot (utf8Len prior) taken cs (utf8Len (prior ++ taken.reverse ++ ['.']))) := by
  have numeral := Emitted.lexeme_between .number prior taken ('.' :: cs)
  have size : '.'.utf8Size = 1 := rfl
  have point : utf8Len (prior ++ taken.reverse ++ ['.']) - 1 =
      utf8Len (prior ++ taken.reverse) := by simp [size, ← Nat.add_assoc]
  cases cs with
  | nil =>
    rw [scan, point]
    exact .twoBack numeral
  | cons c cs =>
    rw [scan, point]
    simp only [locate, List.head?_cons, State.execute]
    split_ifs with digit
    · exact .goTo (by simpa using State.Reads.fraction prior (c :: '.' :: taken))
    · exact .twoBack numeral

theorem fraction_leads :
    (State.execute (prior ++ taken.reverse ++ cs) (.fraction (utf8Len prior))
        (locate cs (utf8Len (prior ++ taken.reverse))).head?).Leads
      (.fraction (utf8Len prior)) (prior ++ taken.reverse) cs
      (scan .fraction (utf8Len prior) taken cs (utf8Len (prior ++ taken.reverse))) := by
  have numeral := Emitted.lexeme_between .number prior taken cs
  cases cs with
  | nil =>
    rw [List.append_nil] at numeral ⊢
    rw [scan]
    exact .atEnd numeral
  | cons c cs =>
    rw [scan]
    simp only [locate, List.head?_cons, State.execute]
    split_ifs
    · exact .stay (by simpa using State.Reads.fraction prior (c :: taken))
    · exact .here numeral

theorem string_leads :
    (State.execute (prior ++ taken.reverse ++ cs) (.string (utf8Len prior))
        (locate cs (utf8Len (prior ++ taken.reverse))).head?).Leads
      (.string (utf8Len prior)) (prior ++ taken.reverse) cs
      (scan .string (utf8Len prior) taken cs (utf8Len (prior ++ taken.reverse))) := by
  cases cs with
  | nil =>
    rw [List.append_nil, scan]
    exact .atEnd rfl
  | cons c cs =>
    have quoted := Emitted.lexeme_between .string prior (c :: taken) cs
    rw [scan]
    simp only [locate, List.head?_cons, State.execute]
    split_ifs
    · refine .behind ?_
      simpa [Nat.add_assoc] using quoted
    · exact .stay (by simpa using State.Reads.string prior (c :: taken))

theorem operator_leads {first : Opening} {c : Char} (h : Opening.ofChar? c = some first) :
    (State.execute (prior ++ [c] ++ cs) (.operator first (utf8Len prior))
        (locate cs (utf8Len (prior ++ [c]))).head?).Leads
      (.operator first (utf8Len prior)) (prior ++ [c]) cs
      (scan (.operator first) (utf8Len prior) [c] cs (utf8Len (prior ++ [c]))) := by
  have alone : Emitted.lexeme (prior ++ [c] ++ cs) (State.alone first (utf8Len prior)) =
      first.reading [c] (utf8Len prior) := by
    unfold State.alone Opening.reading
    cases first.alone? with
    | none => rfl
    | some s =>
      have symbol := Emitted.lexeme_between (.symbol s) prior [c] cs
      simpa [Opening.utf8Size_of_ofChar? h] using symbol
  cases cs with
  | nil =>
    rw [List.append_nil] at alone ⊢
    rw [scan]
    exact .atEnd alone
  | cons d cs =>
    rw [scan]
    simp only [locate, List.head?_cons, State.execute]
    split_ifs
    · refine .behind ?_
      have both := Emitted.lexeme_between (.symbol first.withEqual) prior [d, c] cs
      simpa [Nat.add_assoc, Nat.add_comm d.utf8Size] using both
    · exact .here alone

variable {before taken start} in
/-- **Each state does what its mode does** with the next character, or at the end of the source. -/
theorem State.Reads.leads {s : State} {mode : Mode} (h : s.Reads before mode start taken) :
    (s.execute (before ++ cs) (locate cs (utf8Len before)).head?).Leads s before cs
      (scan mode start taken cs (utf8Len before)) := by
  cases h with
  | normal => exact normal_leads before taken cs start
  | comment => exact comment_leads before taken cs start
  | identifier prior => exact identifier_leads prior taken cs
  | number prior => exact number_leads prior taken cs
  | numberDot prior => exact numberDot_leads prior taken cs
  | fraction prior => exact fraction_leads prior taken cs
  | string prior => exact string_leads prior taken cs
  | operator prior opening => exact operator_leads prior cs opening

end States

/-! ### whole readings -/

/-- A machine that has read `before` with `cs` to come: what waits and what was not reached are the
characters of `cs`, each in its place. -/
structure Stands (r : Reader) (before cs : List Char) : Prop where
  source : r.source = before ++ cs
  ahead : r.ahead = locate cs (utf8Len before)

theorem Stands.withState {r : Reader} {before cs : List Char} (h : r.Stands before cs)
    (state : State) : { r with state }.Stands before cs :=
  ⟨h.source, h.ahead⟩

/-- A machine between tokens, at the place that the lexer has reached. -/
structure Follows (r : Reader) (lexer : Lexer) : Prop where
  lines : r.lines = lexer.lines
  state : r.state = .normal
  stands : ∃ before, utf8Len before = lexer.cursor.offset ∧ r.Stands before lexer.cursor.rest

section Next

variable {r : Reader}

theorem next_stay (h : r.state.execute r.source r.nextChar.1 = .stay) :
    r.next = r.nextChar.2.next := by
  rw [next]
  split
  · rfl
  · next h' => cases h.symm.trans h'
  · next h' => cases h.symm.trans h'

theorem next_goTo {state : State} (h : r.state.execute r.source r.nextChar.1 = .goTo state) :
    r.next = { r.nextChar.2 with state }.next := by
  rw [next]
  split
  · next h' => cases h.symm.trans h'
  · next h' =>
    cases h.symm.trans h'
    rfl
  · next h' => cases h.symm.trans h'

theorem next_emit {state : State} {emitted : Emitted} {back : List Located}
    (h : r.state.execute r.source r.nextChar.1 = .emit state emitted back) :
    r.next = r.nextChar.2.emit state emitted back := by
  rw [next]
  split
  · next h' => cases h.symm.trans h'
  · next h' => cases h.symm.trans h'
  · next h' =>
    cases h.symm.trans h'
    rfl

variable {before cs : List Char}

theorem Stands.head (h : r.Stands before cs) :
    r.nextChar.1 = (locate cs (utf8Len before)).head? ∧
      r.nextChar.2.ahead = (locate cs (utf8Len before)).tail ∧
      r.nextChar.2.source = r.source ∧ r.nextChar.2.lines = r.lines ∧
      r.nextChar.2.state = r.state := by
  rw [← h.ahead]
  rcases r.nextChar_cases with ⟨none, taken⟩ | ⟨c, after, some, taken, source, lines, state⟩
  · rw [taken, none]
    exact ⟨rfl, rfl, rfl, rfl, rfl⟩
  · rw [taken, some]
    exact ⟨rfl, rfl, source, lines, state⟩

/-- The token of a reading, with its line, and the lexer after it. -/
def told (lines : Lines) (reading : Reading) : Except LexicalError Token × Lexer :=
  (reading.1.map fun l => ⟨l.kind, l.text, l.span, lines.lineOf l.span⟩, ⟨lines, reading.2⟩)

/-- **From any state in the middle of a token the machine reads as the mode does**, and stops where
the mode stops, ready for the next token. -/
theorem Stands.reads_scan {mode : Mode} {start : Nat} {taken : List Char}
    (stands : r.Stands before cs) (reads : r.state.Reads before mode start taken) :
    r.next.1 = (told r.lines (scan mode start taken cs (utf8Len before))).1 ∧
      r.next.2.Follows (told r.lines (scan mode start taken cs (utf8Len before))).2 := by
  -- The end of a comment takes a step without a character, so the induction is on the steps left.
  induction steps : r.size using Nat.strong_induction_on
    generalizing r before cs mode start taken with
  | _ n ih =>
    subst steps
    obtain ⟨head, tail, source, lines, state⟩ := stands.head
    have leads := reads.leads cs
    rw [← stands.source, ← head] at leads
    have further {c : Char} {cs : List Char} (h : r.Stands before (c :: cs)) :
        r.nextChar.2.Stands (before ++ [c]) cs := by
      constructor
      · rw [source, h.source, List.append_assoc, List.singleton_append]
      · rw [h.head.2.1]
        simp [locate]
    generalize scan mode start taken cs (utf8Len before) = reading at leads ⊢
    generalize done : r.state.execute r.source r.nextChar.1 = transition at leads
    rw [← lines]
    cases leads with
    | stay again =>
      rw [next_stay done]
      have rest := ih _ (size_stay done) (further stands) (state ▸ again) rfl
      simpa using rest
    | goTo again =>
      rw [next_goTo done]
      have rest := ih _ (size_goTo done) ((further stands).withState _) again rfl
      simpa using rest
    | goToEnd again =>
      rw [next_goTo done]
      have here : r.nextChar.2.Stands before [] := ⟨source.trans stands.source, tail⟩
      exact ih _ (size_goTo done) (here.withState _) again rfl
    | emit whole returned =>
      rename_i emitted back
      rw [next_emit done]
      refine ⟨?_, rfl, rfl, _, rfl, ?_, ?_⟩
      · unfold Reader.emit told Emitted.lexeme
        rw [source, stands.source]
        cases emitted with
        | error e => rfl
        | ok token => rfl
      · exact (source.trans stands.source).trans whole.symm
      · change (back ++ r.nextChar.2.pending) ++ _ = _
        rw [List.append_assoc]
        exact (congrArg (back ++ ·) tail).trans returned

end Next

/-- A machine that follows a lexer gives the next answer of the lexer, and follows it on. -/
theorem Follows.next {r : Reader} {lexer : Lexer} (h : r.Follows lexer) :
    r.next.1 = lexer.next.1 ∧ r.next.2.Follows lexer.next.2 := by
  obtain ⟨lines, state, before, offset, stands⟩ := h
  have reads : r.state.Reads before .normal lexer.cursor.offset [] := state ▸ .normal before _ _
  have read := stands.reads_scan reads
  rw [lines, offset] at read
  exact read

theorem Follows.after {r : Reader} {lexer : Lexer} (h : r.Follows lexer) (n : Nat) :
    (r.after n).Follows (lexer.after n) := by
  induction n generalizing r lexer with
  | zero => exact h
  | succ n ih => exact ih h.next.2

theorem follows_ofText (source : String) : (ofText source).Follows (.ofText source) :=
  ⟨rfl, rfl, [], rfl, rfl, rfl⟩

/-- **The machine answers every call as the lexer does.** -/
theorem answer_eq (source : String) (n : Nat) :
    (ofText source).answer n = (Lexer.ofText source).answer n :=
  ((follows_ofText source).after n).next.1

end Reader

end Roteiro
