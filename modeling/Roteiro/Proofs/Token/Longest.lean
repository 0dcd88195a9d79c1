import Mathlib.Data.List.TakeWhile
import Roteiro.Proofs.Decimal.Plain
import Roteiro.Proofs.Token.Tiling

/-!
The lexer takes the longest match. The tokens of a source are described here without a machine: a
text as a whole is a token of at most one kind (`Kind.ofText?`), and after blanks and comments the
longest text ahead that is a token is taken (`longestToken?`). Where there is none, a string that
never ends or a single character is an error. Reading in this way yields exactly what the lexer
yields, call by call (`Lexer.takes_longest`).
-/

namespace Roteiro

open Text String Decimal

/-! ### texts that are tokens -/

/-- A run of characters of an identifier. -/
def IsRun : List Char → Prop
  | [] => False
  | c :: cs => startsIdentifier c = true ∧ ∀ d ∈ cs, continuesIdentifier d = true

instance : DecidablePred IsRun
  | [] => .isFalse id
  | c :: cs =>
    have : Decidable (∀ d ∈ cs, continuesIdentifier d = true) := List.decidableBAll _ cs
    inferInstanceAs (Decidable (startsIdentifier c = true ∧ ∀ d ∈ cs, continuesIdentifier d = true))

/-- Text between two quotes, without a quote inside. -/
def IsQuoted (text : List Char) : Prop :=
  ∃ inner, '"' ∉ inner ∧ text = '"' :: (inner ++ ['"'])

/-- What stands inside is found by taking off one character at either end. -/
theorem isQuoted_iff {text : List Char} : IsQuoted text ↔
    '"' ∉ (text.drop 1).dropLast ∧ text = '"' :: ((text.drop 1).dropLast ++ ['"']) := by
  constructor
  · rintro ⟨inner, hinner, rfl⟩
    simp [hinner]
  · exact fun h => ⟨_, h⟩

instance : DecidablePred IsQuoted := fun _ => decidable_of_iff _ isQuoted_iff.symm

/-- The digits at the front of a number, and its fraction, make up all of it. -/
theorem isPlain_iff {text : List Char} : IsPlain text ↔
    text.takeWhile Char.isDigit ≠ [] ∧ (text.dropWhile Char.isDigit = [] ∨
      text.dropWhile Char.isDigit = '.' :: (text.dropWhile Char.isDigit).drop 1 ∧
        (text.dropWhile Char.isDigit).drop 1 ≠ [] ∧
        ((text.dropWhile Char.isDigit).drop 1).all Char.isDigit = true) := by
  have hcut := List.takeWhile_append_dropWhile (p := Char.isDigit) (l := text)
  have hwhole : ∀ c ∈ text.takeWhile Char.isDigit, c.isDigit = true :=
    fun c hc => List.mem_takeWhile_imp hc
  constructor
  · intro h
    cases h with
    | whole h =>
      rw [List.takeWhile_eq_self_iff.mpr h.digits, List.dropWhile_eq_nil_iff.mpr h.digits]
      exact ⟨h.ne_nil, .inl rfl⟩
    | @fraction ds fs h h' =>
      have hpoint : '.'.isDigit = false := rfl
      rw [List.takeWhile_append_of_pos h.digits, List.dropWhile_append_of_pos h.digits]
      simp only [List.takeWhile_cons, List.dropWhile_cons, hpoint]
      exact ⟨by simp [h.ne_nil], .inr ⟨rfl, h'.ne_nil, List.all_eq_true.mpr h'.digits⟩⟩
  · rintro ⟨hne, hrest | ⟨hpoint, hfraction, hdigits⟩⟩
    · rw [← hcut, hrest, List.append_nil]
      exact .whole ⟨hne, hwhole⟩
    · rw [← hcut, hpoint]
      exact .fraction ⟨hne, hwhole⟩ ⟨hfraction, List.all_eq_true.mp hdigits⟩

instance : DecidablePred IsPlain := fun _ => decidable_of_iff _ isPlain_iff.symm

/-- The symbols as they are written. -/
def Symbol.spellings : List (List Char × Symbol) := [
  (['('], leftParen), ([')'], rightParen), (['['], leftBracket), ([']'], rightBracket),
  (['{'], leftBrace), (['}'], rightBrace), ([','], comma), (['.'], dot), (['-'], minus),
  (['+'], plus), (['*'], star), (['/'], slash), (['%'], percent), (['='], equal), (['<'], less),
  (['>'], greater), (['=', '='], equalEqual), (['!', '='], bangEqual), (['<', '='], lessEqual),
  (['>', '='], greaterEqual)]

/-- The kind of a run: that of the keyword that is written so, or else an identifier. -/
def Kind.ofRun (run : List Char) : Kind :=
  match Keyword.spellings.find? fun p => p.1.toList = run with
  | some (_, k) => .keyword k
  | none => .identifier

/-- The kind of the token that a text is as a whole. -/
def Kind.ofText? (text : List Char) : Option Kind :=
  if IsRun text then some (.ofRun text)
  else if IsPlain text then some .number
  else if IsQuoted text then some .string
  else (Symbol.spellings.lookup text).map .symbol

/-! ### the longest token -/

/-- The longest token among the first `n` characters, and its kind. -/
def longestWithin (cs : List Char) : Nat → Option (List Char × Kind)
  | 0 => none
  | n + 1 =>
    match Kind.ofText? (cs.take (n + 1)) with
    | some kind => some (cs.take (n + 1), kind)
    | none => longestWithin cs n

/-- The longest token at the front of some characters, and its kind. -/
def longestToken? (cs : List Char) : Option (List Char × Kind) :=
  longestWithin cs cs.length

/-- The place after blanks and comments. -/
def Cursor.skip : List Char → Nat → Cursor
  | [], pos => ⟨[], pos⟩
  | c :: cs, pos =>
    if isBlank c then skip cs (pos + c.utf8Size)
    else if c = '#' then
      skip (cs.dropWhile (· ≠ '\n')) (pos + utf8Len (c :: cs.takeWhile (· ≠ '\n')))
    else ⟨c :: cs, pos⟩
termination_by cs => cs.length
decreasing_by
  · simp
  · have := (List.dropWhile_sublist (· ≠ '\n') (l := cs)).length_le
    simp at this ⊢
    omega

theorem Cursor.length_skip_le (cs : List Char) (pos : Nat) :
    (Cursor.skip cs pos).rest.length ≤ cs.length := by
  fun_induction Cursor.skip cs pos with
  | case1 pos => exact le_rfl
  | case2 c cs pos hblank ih =>
    simp only [List.length_cons]
    omega
  | case3 cs pos hblank ih =>
    have := (List.dropWhile_sublist (· ≠ '\n') (l := cs)).length_le
    simp only [List.length_cons]
    omega
  | case4 c cs pos hblank hhash => exact le_rfl

/-- The reading of what stands at byte `pos`, where neither a blank nor a comment begins. Where no
text ahead is a token, a quote begins a string that never ends, and any other character is an error
by itself. -/
def readingAt (pos : Nat) : List Char → Reading
  | [] => (.ok ⟨.eof, "", ⟨pos, 0⟩⟩, ⟨[], pos⟩)
  | c :: cs =>
    match longestToken? (c :: cs) with
    | some (text, kind) =>
      (.ok ⟨kind, String.ofList text, ⟨pos, utf8Len text⟩⟩,
        ⟨(c :: cs).drop text.length, pos + utf8Len text⟩)
    | none =>
      if c = '"' then
        (.error ⟨.unclosedString, ⟨pos, utf8Len (c :: cs)⟩⟩, ⟨[], pos + utf8Len (c :: cs)⟩)
      else (.error ⟨.unrecognized c, ⟨pos, c.utf8Size⟩⟩, ⟨cs, pos + c.utf8Size⟩)

/-- A reading that skips blanks and comments and then takes the longest token. -/
def Cursor.readLongest (cursor : Cursor) : Reading :=
  let here := skip cursor.rest cursor.offset
  readingAt here.offset here.rest

/-! ### facts about the longest token -/

theorem longestWithin_eq_none {cs : List Char} {n : Nat}
    (h : ∀ k, 0 < k → k ≤ n → Kind.ofText? (cs.take k) = none) : longestWithin cs n = none := by
  induction n with
  | zero => rfl
  | succ n ih =>
    rw [longestWithin, h (n + 1) (by omega) le_rfl]
    exact ih fun k hk hkn => h k hk (by omega)

theorem longestWithin_eq_some {cs : List Char} {kind : Kind} {m n : Nat} (hm : 0 < m) (hmn : m ≤ n)
    (hkind : Kind.ofText? (cs.take m) = some kind)
    (hlonger : ∀ k, m < k → k ≤ n → Kind.ofText? (cs.take k) = none) :
    longestWithin cs n = some (cs.take m, kind) := by
  induction n with
  | zero => omega
  | succ n ih =>
    rw [longestWithin]
    by_cases hlast : m = n + 1
    · subst hlast
      rw [hkind]
    · rw [hlonger (n + 1) (by omega) le_rfl]
      exact ih (by omega) fun k hk hkn => hlonger k hk (by omega)

theorem longestWithin_ne_nil {cs text : List Char} {kind : Kind} {n : Nat} (hcs : cs ≠ [])
    (h : longestWithin cs n = some (text, kind)) : text ≠ [] := by
  induction n with
  | zero => cases h
  | succ n ih =>
    rw [longestWithin] at h
    split at h
    · cases h
      simp [hcs]
    · exact ih h

/-- There is no longest token if no text ahead is a token. -/
theorem longestToken?_eq_none {c : Char} {cs : List Char}
    (h : ∀ ds, ds <+: cs → Kind.ofText? (c :: ds) = none) : longestToken? (c :: cs) = none := by
  refine longestWithin_eq_none fun k hk _ => ?_
  obtain ⟨k, rfl⟩ : ∃ j, k = j + 1 := ⟨k - 1, by omega⟩
  exact h _ ( List.take_prefix k cs)

/-- A token ahead is the longest one if no other text ahead that is a token is longer. -/
theorem longestToken?_eq_some {c : Char} {cs ds : List Char} {kind : Kind} (hahead : ds <+: cs)
    (hkind : Kind.ofText? (c :: ds) = some kind)
    (hlongest : ∀ es, es <+: cs → Kind.ofText? (c :: es) ≠ none → es.length ≤ ds.length) :
    longestToken? (c :: cs) = some (c :: ds, kind) := by
  have htake : c :: ds = (c :: cs).take (ds.length + 1) := by
    rw [List.take_succ_cons, ← List.prefix_iff_eq_take.mp hahead]
  have hlonger : ∀ k, ds.length + 1 < k → k ≤ cs.length + 1 →
      Kind.ofText? ((c :: cs).take k) = none := by
    intro k hk hkn
    obtain ⟨k, rfl⟩ : ∃ j, k = j + 1 := ⟨k - 1, by omega⟩
    by_contra h
    have := hlongest _ ( List.take_prefix k cs) h
    rw [List.length_take] at this
    omega
  rw [htake] at hkind ⊢
  exact longestWithin_eq_some (by omega) (Nat.succ_le_succ hahead.length_le) hkind hlonger

/-- A reading is shorter than what was ahead of it, unless it finds the end. -/
theorem length_readingAt_lt (pos : Nat) {cs : List Char} (hcs : cs ≠ []) :
    (readingAt pos cs).2.rest.length < cs.length := by
  cases cs with
  | nil => exact absurd rfl hcs
  | cons c cs =>
    rw [readingAt]
    split
    · rename_i text kind h
      have := List.length_pos_iff.mpr (longestWithin_ne_nil (by simp) h)
      simp only [List.length_drop, List.length_cons]
      omega
    · split
      · simp
      · simp

/-- All tokens and errors from a place on, each token the longest one where it stands. The last
item is the end. -/
def Cursor.longestItems (lines : Lines) (cursor : Cursor) : List (Except LexicalError Token) :=
  let item := cursor.readLongest.1.map fun l => ⟨l.kind, l.text, l.span, lines.lineOf l.span⟩
  if (skip cursor.rest cursor.offset).rest = [] then [item]
  else item :: longestItems lines cursor.readLongest.2
termination_by cursor.rest.length
decreasing_by
  exact (length_readingAt_lt _ ‹_›).trans_le (Cursor.length_skip_le ..)

/-! ### characters that begin tokens -/

/-- What holds of the ten digits holds of every digit. -/
theorem of_isDigit (P : Char → Prop) {c : Char} (h : c.isDigit = true)
    (hall : ∀ n ∈ List.range' 48 10, P (Char.ofNat n)) : P c := by
  have hrange : 48 ≤ c.toNat ∧ c.toNat ≤ 57 := by
    simpa [Char.isDigit, UInt32.le_iff_toNat_le] using h
  have := hall c.toNat (by rw [List.mem_range'_1]; omega)
  rwa [Char.ofNat_toNat] at this

theorem not_digit_of_starts {c : Char} (h : startsIdentifier c = true) : c.isDigit = false := by
  by_contra hdigit
  have hstarts : startsIdentifier c = false :=
    of_isDigit (startsIdentifier · = false) (by simpa using hdigit) (by decide +kernel)
  rw [h] at hstarts
  cases hstarts

/-- A blank begins no token and no comment. -/
theorem blank_begins_nothing {c : Char} (h : isBlank c = true) :
    Symbol.ofChar? c = none ∧ Opening.ofChar? c = none ∧ c ≠ '"' ∧ c ≠ '#' ∧ c.isDigit = false ∧
      startsIdentifier c = false := by
  have hall : ∀ r ∈ blankRanges, ∀ n ∈ List.range' r.1 (r.2 + 1 - r.1),
      Symbol.ofChar? (Char.ofNat n) = none ∧ Opening.ofChar? (Char.ofNat n) = none ∧
        Char.ofNat n ≠ '"' ∧ Char.ofNat n ≠ '#' ∧ (Char.ofNat n).isDigit = false ∧
        startsIdentifier (Char.ofNat n) = false := by
    decide +kernel
  obtain ⟨r, hr, hlow, hhigh⟩ := Ranges.contains_iff.mp h
  have := hall r hr c.toNat (by rw [List.mem_range'_1]; omega)
  rwa [Char.ofNat_toNat] at this

/-- The characters that begin symbols. -/
def Symbol.beginnings : List Char :=
  spellings.flatMap fun p => p.1.take 1

theorem lookup_spellings_eq_none {c : Char} (ds : List Char) (h : c ∉ Symbol.beginnings) :
    Symbol.spellings.lookup (c :: ds) = none := by
  rw [List.lookup_eq_none_iff]
  intro p hp
  rw [bne_iff_ne]
  intro heq
  exact h (List.mem_flatMap.mpr ⟨p, hp, by simp [← heq]⟩)

/-- No symbol begins like an identifier, a number or a string. -/
theorem not_beginning {c : Char} (h : startsIdentifier c = true ∨ c.isDigit = true ∨ c = '"') :
    c ∉ Symbol.beginnings := by
  have hall : (Symbol.beginnings.all fun d =>
      !startsIdentifier d && !d.isDigit && d != '"') = true := by
    decide +kernel
  intro hmem
  have hc := List.all_eq_true.mp hall c hmem
  rcases h with h | h | rfl
  · simp [h] at hc
  · simp [h] at hc
  · simp at hc

/-! ### texts that are tokens, by their first character -/

theorem not_isPlain_cons {c : Char} {ds : List Char} (h : c.isDigit = false) :
    ¬IsPlain (c :: ds) := by
  rw [isPlain_iff, List.takeWhile_cons, if_neg (by simp [h])]
  simp

theorem not_isQuoted_cons {c : Char} {ds : List Char} (h : c ≠ '"') : ¬IsQuoted (c :: ds) := by
  rintro ⟨inner, -, heq⟩
  exact h (List.cons.inj heq).1

/-- The lexer looks words up where the spellings of the keywords are. -/
theorem Kind.ofRun_eq (run : List Char) : Kind.ofRun run = .ofWord (String.ofList run) := by
  have found : ∀ table : List (String × Keyword), table.lookup (String.ofList run) =
      (table.find? fun p => p.1.toList = run).map Prod.snd := by
    intro table
    induction table with
    | nil => rfl
    | cons p table ih =>
      obtain ⟨word, k⟩ := p
      have same : (String.ofList run == word) = decide (word.toList = run) := by
        rw [beq_eq_decide]
        refine decide_eq_decide.2 ⟨?_, ?_⟩
        · rintro rfl
          exact String.toList_ofList
        · rintro rfl
          exact String.ofList_toList
      rw [List.lookup_cons, List.find?_cons, ih, same]
      cases decide (word.toList = run) with
      | true => rfl
      | false => rfl
  unfold Kind.ofRun Kind.ofWord Keyword.ofWord?
  rw [found]
  cases Keyword.spellings.find? fun p => p.1.toList = run with
  | none => rfl
  | some p => rfl

theorem ofText?_word {c : Char} (ds : List Char) (hc : startsIdentifier c = true) :
    Kind.ofText? (c :: ds) =
      if ds.all continuesIdentifier then some (.ofWord (String.ofList (c :: ds))) else none := by
  have hquote : c ≠ '"' := by
    rintro rfl
    cases hc
  unfold Kind.ofText?
  rw [if_neg (not_isPlain_cons (not_digit_of_starts hc)), if_neg (not_isQuoted_cons hquote),
    lookup_spellings_eq_none ds (not_beginning (.inl hc))]
  by_cases hds : ds.all continuesIdentifier = true
  · rw [if_pos hds, if_pos (show IsRun (c :: ds) from ⟨hc, List.all_eq_true.mp hds⟩),
      Kind.ofRun_eq]
  · rw [if_neg hds, if_neg (show ¬IsRun (c :: ds) from fun h => hds (List.all_eq_true.mpr h.2))]
    rfl

theorem ofText?_number {c : Char} (ds : List Char) (hc : c.isDigit = true) :
    Kind.ofText? (c :: ds) = if IsPlain (c :: ds) then some .number else none := by
  have hstarts : startsIdentifier c = false := by
    by_contra h
    rw [not_digit_of_starts (by simpa using h)] at hc
    cases hc
  have hquote : c ≠ '"' := by
    rintro rfl
    cases hc
  unfold Kind.ofText?
  rw [if_neg (show ¬IsRun (c :: ds) by simp [IsRun, hstarts]), if_neg (not_isQuoted_cons hquote),
    lookup_spellings_eq_none ds (not_beginning (.inr (.inl hc)))]
  rfl

theorem ofText?_string (ds : List Char) :
    Kind.ofText? ('"' :: ds) = if IsQuoted ('"' :: ds) then some .string else none := by
  have hstarts : startsIdentifier '"' = false := rfl
  unfold Kind.ofText?
  rw [if_neg (show ¬IsRun ('"' :: ds) by simp [IsRun, hstarts]), if_neg (not_isPlain_cons rfl),
    lookup_spellings_eq_none ds (not_beginning (.inr (.inr rfl)))]
  rfl

/-- Any other character begins symbols at most. -/
theorem ofText?_other {c : Char} (ds : List Char) (hword : startsIdentifier c = false)
    (hdigit : c.isDigit = false) (hquote : c ≠ '"') :
    Kind.ofText? (c :: ds) = (Symbol.spellings.lookup (c :: ds)).map .symbol := by
  unfold Kind.ofText?
  rw [if_neg (show ¬IsRun (c :: ds) by simp [IsRun, hword]), if_neg (not_isPlain_cons hdigit),
    if_neg (not_isQuoted_cons hquote)]

theorem ofText?_symbol {c : Char} {s : Symbol} (ds : List Char) (h : Symbol.ofChar? c = some s) :
    Kind.ofText? (c :: ds) = if ds = [] then some (.symbol s) else none := by
  unfold Symbol.ofChar? at h
  split at h <;> cases h
  all_goals
    rw [ofText?_other ds rfl rfl (by decide)]
    cases ds <;> rfl

theorem ofText?_opening {c : Char} {first : Opening} (ds : List Char)
    (h : Opening.ofChar? c = some first) :
    Kind.ofText? (c :: ds) =
      if ds = [] then first.alone?.map .symbol
      else if ds = ['='] then some (.symbol first.withEqual) else none := by
  unfold Opening.ofChar? at h
  split at h <;> cases h
  all_goals
    rw [ofText?_other ds rfl rfl (by decide)]
    rcases ds with _ | ⟨d, _ | ⟨e, es⟩⟩
    · rfl
    · by_cases hd : d = '='
      · subst hd
        rfl
      · have hd' : (d == '=') = false := by simpa using hd
        simp [Symbol.spellings, List.lookup_cons, hd, hd']
    · simp [Symbol.spellings, List.lookup_cons]

theorem ofText?_unrecognized {c : Char} (ds : List Char) (hsymbol : Symbol.ofChar? c = none)
    (hopening : Opening.ofChar? c = none) (hquote : c ≠ '"') (hdigit : c.isDigit = false)
    (hword : startsIdentifier c = false) : Kind.ofText? (c :: ds) = none := by
  have hall : (Symbol.beginnings.all fun d =>
      (Symbol.ofChar? d).isSome || (Opening.ofChar? d).isSome) = true := by
    decide +kernel
  have hbeginning : c ∉ Symbol.beginnings := by
    intro hmem
    have hc := List.all_eq_true.mp hall c hmem
    simp [hsymbol, hopening] at hc
  rw [ofText?_other ds hword hdigit hquote, lookup_spellings_eq_none ds hbeginning]
  rfl

/-! ### the longest token, by its first character -/

/-- Among the texts ahead of which all characters have a property, none is longer than the run of
characters that have it. -/
theorem length_le_takeWhile {p : Char → Bool} {text cs : List Char} (hahead : text <+: cs)
    (h : ∀ c ∈ text, p c = true) : text.length ≤ (cs.takeWhile p).length := by
  obtain ⟨rest, rfl⟩ := hahead
  rw [List.takeWhile_append_of_pos h, List.length_append]
  omega

theorem longestToken?_word {c : Char} (cs : List Char) (hc : startsIdentifier c = true) :
    longestToken? (c :: cs) = some (c :: cs.takeWhile continuesIdentifier,
      .ofWord (String.ofList (c :: cs.takeWhile continuesIdentifier))) := by
  refine longestToken?_eq_some ( List.takeWhile_prefix _) ?_ fun ds hahead htoken => ?_
  · rw [ofText?_word _ hc, if_pos List.all_takeWhile]
  · rw [ofText?_word _ hc] at htoken
    exact length_le_takeWhile hahead (List.all_eq_true.mp (ite_ne_right_iff.mp htoken).1)

/-- The digits at the front and the fraction after them are the longest number. -/
theorem length_le_of_isPlain {text cs : List Char} (hahead : text <+: cs) (h : IsPlain text) :
    text.length ≤
      (cs.takeWhile Char.isDigit ++ fractionOf (cs.dropWhile Char.isDigit)).length := by
  cases h with
  | whole h =>
    have := length_le_takeWhile hahead h.digits
    rw [List.length_append]
    omega
  | @fraction ds fs h h' =>
    obtain ⟨rest, rfl⟩ := hahead
    have hpoint : '.'.isDigit = false := rfl
    have hfraction : fractionOf ('.' :: (fs ++ rest)) =
        '.' :: (fs ++ rest.takeWhile Char.isDigit) := by
      rw [fractionOf, List.takeWhile_append_of_pos h'.digits]
      simp [h'.ne_nil]
    rw [List.append_assoc, List.takeWhile_append_of_pos h.digits,
      List.dropWhile_append_of_pos h.digits]
    simp only [List.cons_append, List.takeWhile_cons, List.dropWhile_cons, hpoint, if_false,
      Bool.false_eq_true, hfraction, List.length_append, List.length_cons, List.length_nil]
    omega

theorem isPlain_number {c : Char} (cs : List Char) (hc : c.isDigit = true) :
    IsPlain (c :: (cs.takeWhile Char.isDigit ++ fractionOf (cs.dropWhile Char.isDigit))) := by
  have hwhole : IsDigits (c :: cs.takeWhile Char.isDigit) :=
    ⟨by simp, List.forall_mem_cons.mpr ⟨hc, fun d hd => List.mem_takeWhile_imp hd⟩⟩
  unfold fractionOf
  split
  · rename_i fs hfs
    split
    · rw [List.append_nil]
      exact .whole hwhole
    · rename_i hne
      have hfraction : IsDigits (fs.takeWhile Char.isDigit) :=
        ⟨by simpa using hne, fun d hd => List.mem_takeWhile_imp hd⟩
      exact .fraction hwhole hfraction
  · rw [List.append_nil]
    exact .whole hwhole

theorem longestToken?_number {c : Char} (cs : List Char) (hc : c.isDigit = true) :
    longestToken? (c :: cs) = some
      (c :: (cs.takeWhile Char.isDigit ++ fractionOf (cs.dropWhile Char.isDigit)), .number) := by
  refine longestToken?_eq_some ?_ ?_ fun ds hahead htoken => ?_
  · have hcut := List.takeWhile_append_dropWhile (p := Char.isDigit) (l := cs)
    rw [← fractionOf_append_drop (cs.dropWhile Char.isDigit), ← List.append_assoc] at hcut
    exact ⟨_, hcut⟩
  · rw [ofText?_number _ hc, if_pos (isPlain_number cs hc)]
  · rw [ofText?_number _ hc] at htoken
    have hplain : IsPlain (c :: ds) := (ite_ne_right_iff.mp htoken).1
    have := length_le_of_isPlain (List.cons_prefix_cons.mpr ⟨rfl, hahead⟩) hplain
    simpa [hc] using this

/-- All of a text that lacks a character is passed over while looking for it. -/
theorem all_ne {q : Char} {text : List Char} (h : q ∉ text) :
    ∀ c ∈ text, decide (c ≠ q) = true := by
  intro c hc
  simpa using fun heq : c = q => h (heq ▸ hc)

/-- A quoted text ahead ends at the first quote after its own. -/
theorem inner_of_isQuoted {ds cs : List Char} (hahead : ds <+: cs) (h : IsQuoted ('"' :: ds)) :
    ds = cs.takeWhile (· ≠ '"') ++ ['"'] ∧ cs.dropWhile (· ≠ '"') ≠ [] := by
  obtain ⟨inner, hinner, heq⟩ := h
  obtain rfl := (List.cons.inj heq).2
  obtain ⟨rest, rfl⟩ := hahead
  rw [List.append_assoc, List.takeWhile_append_of_pos (all_ne hinner),
    List.dropWhile_append_of_pos (all_ne hinner)]
  simp

theorem longestToken?_string {inner rest : List Char} (hinner : '"' ∉ inner) :
    longestToken? ('"' :: (inner ++ '"' :: rest)) = some ('"' :: (inner ++ ['"']), .string) := by
  refine longestToken?_eq_some ⟨rest, by simp⟩ ?_ fun ds hahead htoken => ?_
  · rw [ofText?_string, if_pos ⟨_, hinner, rfl⟩]
  · rw [ofText?_string] at htoken
    have hquoted : IsQuoted ('"' :: ds) := (ite_ne_right_iff.mp htoken).1
    rw [(inner_of_isQuoted hahead hquoted).1, List.takeWhile_append_of_pos (all_ne hinner)]
    simp

theorem longestToken?_unclosed {cs : List Char} (hrest : cs.dropWhile (· ≠ '"') = []) :
    longestToken? ('"' :: cs) = none := by
  refine longestToken?_eq_none fun ds hahead => ?_
  rw [ofText?_string, if_neg fun h => (inner_of_isQuoted hahead h).2 hrest]

theorem longestToken?_symbol {c : Char} {s : Symbol} (cs : List Char)
    (h : Symbol.ofChar? c = some s) : longestToken? (c :: cs) = some ([c], .symbol s) := by
  refine longestToken?_eq_some List.nil_prefix ?_ fun ds hahead htoken => ?_
  · rw [ofText?_symbol _ h, if_pos rfl]
  · rw [ofText?_symbol _ h] at htoken
    simp [(ite_ne_right_iff.mp htoken).1]

/-- An equals sign after an opening belongs to the token. -/
theorem longestToken?_withEqual {c : Char} {first : Opening} (cs : List Char)
    (h : Opening.ofChar? c = some first) :
    longestToken? (c :: '=' :: cs) = some ([c, '='], .symbol first.withEqual) := by
  refine longestToken?_eq_some ⟨cs, rfl⟩ ?_ fun ds hahead htoken => ?_
  · rw [ofText?_opening _ h, if_neg (by simp), if_pos rfl]
  · rw [ofText?_opening _ h] at htoken
    split_ifs at htoken with hnil hequal
    · simp [hnil]
    · simp [hequal]
    · exact absurd rfl htoken

/-- Without an equals sign after it an opening is a token only by itself. -/
theorem longestToken?_opening {c : Char} {first : Opening} {cs : List Char}
    (h : Opening.ofChar? c = some first) (hcs : cs.head? ≠ some '=') :
    longestToken? (c :: cs) = first.alone?.map fun s => ([c], .symbol s) := by
  have halone : Kind.ofText? [c] = first.alone?.map .symbol := by
    rw [ofText?_opening _ h, if_pos rfl]
  have hlonger : ∀ ds, ds <+: cs → ds ≠ [] → Kind.ofText? (c :: ds) = none := by
    intro ds hds hne
    rw [ofText?_opening _ h, if_neg hne, if_neg]
    rintro rfl
    obtain ⟨rest, rfl⟩ := hds
    exact hcs rfl
  cases hfirst : first.alone? with
  | none =>
    refine longestToken?_eq_none fun ds hahead => ?_
    by_cases hnil : ds = []
    · rw [hnil, halone, hfirst]
      rfl
    · exact hlonger ds hahead hnil
  | some s =>
    refine longestToken?_eq_some List.nil_prefix ?_ fun ds hahead htoken => ?_
    · rw [halone, hfirst]
      rfl
    · by_cases hnil : ds = []
      · simp [hnil]
      · exact absurd (hlonger ds hahead hnil) htoken

theorem longestToken?_unrecognized {c : Char} (cs : List Char) (hsymbol : Symbol.ofChar? c = none)
    (hopening : Opening.ofChar? c = none) (hquote : c ≠ '"') (hdigit : c.isDigit = false)
    (hword : startsIdentifier c = false) : longestToken? (c :: cs) = none :=
  longestToken?_eq_none fun ds _ => ofText?_unrecognized ds hsymbol hopening hquote hdigit hword

/-! ### the machine -/

/-- A comment is skipped up to the end of its line. -/
theorem scan_comment_eq (start : Nat) (taken cs : List Char) (pos : Nat) :
    scan .comment start taken cs pos = scan .normal start taken (cs.dropWhile (· ≠ '\n'))
      (pos + utf8Len (cs.takeWhile (· ≠ '\n'))) := by
  obtain ⟨body, rest, rfl, hbody, hrest, hscan⟩ := scan_comment start taken cs pos
  have hends : rest.takeWhile (· ≠ '\n') = [] ∧ rest.dropWhile (· ≠ '\n') = rest := by
    rcases hrest with rfl | ⟨rest, rfl⟩
    · exact ⟨rfl, rfl⟩
    · simp
  rw [hscan, List.takeWhile_append_of_pos (all_ne hbody),
    List.dropWhile_append_of_pos (all_ne hbody), hends.1, hends.2, List.append_nil]

theorem scan_word {c : Char} (cs : List Char) (pos : Nat) (hc : startsIdentifier c = true) :
    scan .identifier pos [c] cs (pos + c.utf8Size) = readingAt pos (c :: cs) := by
  have stop : pos + c.utf8Size + utf8Len (cs.takeWhile continuesIdentifier) =
      pos + utf8Len (c :: cs.takeWhile continuesIdentifier) := by
    rw [utf8Len_cons]
    omega
  rw [scan_identifier, readingAt, longestToken?_word cs hc]
  simp [stop, Span.between_add, drop_length_takeWhile]

theorem scan_numeral {c : Char} (cs : List Char) (pos : Nat) (hc : c.isDigit = true) :
    scan .number pos [c] cs (pos + c.utf8Size) = readingAt pos (c :: cs) := by
  have stop : pos + c.utf8Size + utf8Len (cs.takeWhile Char.isDigit ++
      fractionOf (cs.dropWhile Char.isDigit)) = pos + utf8Len (c :: (cs.takeWhile Char.isDigit ++
        fractionOf (cs.dropWhile Char.isDigit))) := by
    rw [utf8Len_cons]
    omega
  rw [scan_number, readingAt, longestToken?_number cs hc]
  simp only [stop, Span.between_add, List.length_cons, List.length_append, List.drop_succ_cons,
    ← List.drop_drop, drop_length_takeWhile]
  simp

theorem scan_quoted (cs : List Char) (pos : Nat) :
    scan .string pos ['"'] cs (pos + '"'.utf8Size) = readingAt pos ('"' :: cs) := by
  have hcut := List.takeWhile_append_dropWhile (p := (· ≠ '"')) (l := cs)
  have hinner : '"' ∉ cs.takeWhile (· ≠ '"') := by
    intro h
    simpa using List.mem_takeWhile_imp h
  rw [scan_string]
  dsimp only
  rcases hrest : cs.dropWhile (· ≠ '"') with _ | ⟨quote, rest⟩
  · have stop : pos + '"'.utf8Size + utf8Len cs = pos + utf8Len ('"' :: cs) := by
      rw [utf8Len_cons]
      omega
    rw [readingAt, longestToken?_unclosed hrest]
    simp [stop, Span.between_add]
  · have hquote : quote = '"' := by
      have hhead := List.head?_dropWhile_not (· ≠ '"') cs
      rw [hrest] at hhead
      simpa using hhead
    subst hquote
    rw [hrest] at hcut
    generalize cs.takeWhile (· ≠ '"') = inner at hcut hinner ⊢
    subst hcut
    have stop : pos + '"'.utf8Size + utf8Len inner + '"'.utf8Size =
        pos + utf8Len ('"' :: (inner ++ ['"'])) := by
      simp
      omega
    rw [readingAt, longestToken?_string hinner]
    simp [stop, Span.between_add]

theorem scan_opening {c : Char} {first : Opening} (cs : List Char) (pos : Nat)
    (h : Opening.ofChar? c = some first) :
    scan (.operator first) pos [c] cs (pos + c.utf8Size) = readingAt pos (c :: cs) := by
  have size : c.utf8Size = 1 := by
    unfold Opening.ofChar? at h
    split at h <;> cases h <;> rfl
  have alone : ∀ rest : List Char, rest.head? ≠ some '=' →
      (first.reading [c] pos, ⟨rest, pos + c.utf8Size⟩) = readingAt pos (c :: rest) := by
    intro rest hrest
    rw [readingAt, longestToken?_opening h hrest, Opening.reading]
    cases hfirst : first.alone? with
    | some s => simp [Lexeme.of, Span.between, size]
    | none =>
      obtain rfl : first = .bang := by cases first <;> first | rfl | cases hfirst
      obtain rfl : c = '!' := by
        unfold Opening.ofChar? at h
        split at h <;> first | rfl | cases h
      simp [size]
  cases cs with
  | nil =>
    rw [scan]
    exact alone [] (by simp)
  | cons d ds =>
    rw [scan]
    by_cases hd : d = '='
    · subst hd
      have equal : '='.utf8Size = 1 := rfl
      rw [if_pos rfl, readingAt, longestToken?_withEqual ds h]
      simp [Lexeme.of, Span.between, size, equal]
      omega
    · rw [if_neg hd]
      exact alone (d :: ds) (by simpa using hd)

/-- A token or an error where neither a blank nor a comment begins. -/
theorem scan_eq_readingAt (start : Nat) (taken : List Char) {c : Char} (cs : List Char) (pos : Nat)
    (hblank : isBlank c = false) (hhash : c ≠ '#') :
    scan .normal start taken (c :: cs) pos = readingAt pos (c :: cs) := by
  rw [scan]
  cases hsymbol : Symbol.ofChar? c with
  | some s =>
    rw [readingAt, longestToken?_symbol cs hsymbol]
    simp [Lexeme.of, Span.between]
  | none =>
    cases hopening : Opening.ofChar? c with
    | some first => exact scan_opening cs pos hopening
    | none =>
      dsimp only
      by_cases hquote : c = '"'
      · subst hquote
        rw [if_pos rfl]
        exact scan_quoted cs pos
      rw [if_neg hquote, if_neg hhash]
      split_ifs with hdigit hword hblank'
      · exact scan_numeral cs pos hdigit
      · exact scan_word cs pos hword
      · rw [hblank] at hblank'
        cases hblank'
      · rw [readingAt, longestToken?_unrecognized cs hsymbol hopening hquote (by simpa using hdigit)
          (by simpa using hword)]
        simp [hquote, Span.between]

/-- **One reading of the lexer** skips blanks and comments and takes the longest token. -/
theorem scan_normal_eq (start : Nat) (taken cs : List Char) (pos : Nat) :
    scan .normal start taken cs pos = Cursor.readLongest ⟨cs, pos⟩ := by
  unfold Cursor.readLongest
  dsimp only
  fun_induction Cursor.skip cs pos generalizing start taken with
  | case1 pos => simp [scan, readingAt, Lexeme.of, Span.between]
  | case2 c cs pos hblank ih =>
    obtain ⟨hsymbol, hopening, hquote, hhash, hdigit, hword⟩ := blank_begins_nothing hblank
    rw [scan, hsymbol, hopening, ← ih start taken]
    simp [hquote, hhash, hdigit, hword, hblank]
  | case3 cs pos hblank ih =>
    have stop : pos + '#'.utf8Size + utf8Len (cs.takeWhile (· ≠ '\n')) =
        pos + utf8Len ('#' :: cs.takeWhile (· ≠ '\n')) := by
      rw [utf8Len_cons]
      omega
    have hcomment : scan .normal start taken ('#' :: cs) pos =
        scan .comment pos [] cs (pos + '#'.utf8Size) := by
      rw [scan]
      rfl
    rw [hcomment, scan_comment_eq, stop, ih pos []]
  | case4 c cs pos hblank hhash =>
    exact scan_eq_readingAt start taken cs pos (by simpa using hblank) hhash

theorem Cursor.read_eq_readLongest (cursor : Cursor) : cursor.read = cursor.readLongest :=
  scan_normal_eq _ _ _ _

/-! ### all readings -/

theorem Kind.ne_eof_of_ofText? {text : List Char} {kind : Kind}
    (h : Kind.ofText? text = some kind) : kind ≠ .eof := by
  unfold Kind.ofText? at h
  split_ifs at h
  · cases h
    rw [ofRun_eq]
    exact ofWord_ne_eof _
  · cases h
    simp
  · cases h
    simp
  · obtain ⟨s, -, rfl⟩ := Option.map_eq_some_iff.mp h
    simp

theorem ofText?_of_longestWithin {cs text : List Char} {kind : Kind} {n : Nat}
    (h : longestWithin cs n = some (text, kind)) : Kind.ofText? text = some kind := by
  induction n with
  | zero => cases h
  | succ n ih =>
    rw [longestWithin] at h
    split at h
    · rename_i hkind
      cases h
      exact hkind
    · exact ih h

/-- What is read where something is left is a token as a whole. -/
theorem ofText?_of_readingAt {pos : Nat} {cs : List Char} (hcs : cs ≠ []) {l : Lexeme}
    (h : (readingAt pos cs).1 = .ok l) : Kind.ofText? l.text.toList = some l.kind := by
  cases cs with
  | nil => exact absurd rfl hcs
  | cons c cs =>
    rw [readingAt] at h
    split at h
    · rename_i text kind hlongest
      cases h
      simpa using ofText?_of_longestWithin hlongest
    · split_ifs at h

/-- All items are tokens as a whole or errors, up to the end, which is the last one. -/
theorem Cursor.longestItems_eq (lines : Lines) (cursor : Cursor) : ∃ items finish,
    cursor.longestItems lines = items ++ [.ok finish] ∧ finish.kind = .eof ∧
      ∀ t, .ok t ∈ items → Kind.ofText? t.lexeme.toList = some t.kind := by
  fun_induction Cursor.longestItems lines cursor with
  | case1 cursor item hend =>
    refine ⟨[], (Lexer.mk lines cursor).finish (skip cursor.rest cursor.offset).offset, ?_, rfl,
      by simp⟩
    simp [item, readLongest, hend, readingAt, Except.map, Lexer.finish]
  | case2 cursor item hend ih =>
    obtain ⟨items, finish, heq, hfinish, hitems⟩ := ih
    refine ⟨item :: items, finish, by rw [heq, List.cons_append], hfinish, ?_⟩
    intro t ht
    rcases List.mem_cons.mp ht with ht | ht
    · cases hread : cursor.readLongest.1 with
      | error e => simp [item, hread, Except.map] at ht
      | ok l =>
        obtain rfl : t = _ := by simpa [item, hread, Except.map] using ht
        exact ofText?_of_readingAt hend hread
    · exact hitems t ht

/-- The items of the lexer are the longest ones, as long as there is fuel for each character and the
end. -/
theorem Lexer.itemsWithin_eq_longestItems (lines : Lines) (cursor : Cursor) (fuel : Nat)
    (hfuel : cursor.rest.length < fuel) :
    (itemsWithin fuel ⟨lines, cursor⟩).1 = cursor.longestItems lines := by
  induction fuel generalizing cursor with
  | zero => omega
  | succ fuel ih =>
    rw [itemsWithin, next, Cursor.longestItems, Cursor.read_eq_readLongest]
    by_cases hend : (Cursor.skip cursor.rest cursor.offset).rest = []
    · rw [if_pos hend]
      simp [Cursor.readLongest, hend, readingAt, Except.map]
    · have hshort : cursor.readLongest.2.rest.length < fuel := by
        have := length_readingAt_lt (Cursor.skip cursor.rest cursor.offset).offset hend
        have hskip := Cursor.length_skip_le cursor.rest cursor.offset
        show (readingAt _ _).2.rest.length < fuel
        omega
      rw [if_neg hend, ← ih _ hshort]
      cases hread : cursor.readLongest.1 with
      | error e => simp [Except.map, hread]
      | ok l =>
        have hkind := Kind.ne_eof_of_ofText? (ofText?_of_readingAt hend hread)
        simp [Except.map, hread, hkind]

/-- **The lexer takes the longest match.** The tokens and errors of a source are those that are read
by taking, after blanks and comments, the longest text ahead that is a token. The lexer yields them
one by one, call after call, and then the end for ever. -/
theorem Lexer.takes_longest (source : String) :
    tokenize source = (Cursor.ofText source).longestItems (.ofText source) ∧
    ∃ items finish, (Cursor.ofText source).longestItems (.ofText source) = items ++ [.ok finish] ∧
      finish.kind = .eof ∧ ∀ k, (Lexer.ofText source).answer k = items.getD k (.ok finish) := by
  have hlongest : tokenize source = (Cursor.ofText source).longestItems (.ofText source) :=
    itemsWithin_eq_longestItems _ _ _ (Nat.lt_succ_self _)
  refine ⟨hlongest, ?_⟩
  obtain ⟨n, -, hend, hitems⟩ := answers_tile (.ofText source) source.toList 0
    (source.toList.length + 1) (by omega)
  refine ⟨(List.range n).map (Lexer.ofText source).answer,
    (Lexer.ofText source).finish (0 + utf8Len source.toList), ?_, rfl, fun k => ?_⟩
  · calc (Cursor.ofText source).longestItems (.ofText source)
      _ = (List.range (n + 1)).map (Lexer.ofText source).answer := hlongest.symm.trans hitems
      _ = (List.range n).map (Lexer.ofText source).answer ++ [(Lexer.ofText source).answer n] := by
          rw [List.range_succ, List.map_append, List.map_singleton]
      _ = _ := congrArg (fun i => _ ++ [i]) (hend n le_rfl)
  · by_cases hk : k < n
    · simp [List.getD_eq_getElem?_getD, hk]
    · have hlast : (Lexer.ofText source).answer k =
          .ok ((Lexer.ofText source).finish (0 + utf8Len source.toList)) := hend k (by omega)
      rw [hlast]
      simp [List.getD_eq_getElem?_getD, hk]

end Roteiro
