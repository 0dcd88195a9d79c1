import Roteiro.Parser.Grammar
import Roteiro.Proofs.Parser.Derivation

/-!
What parsers answer. `Answers` says of a parser at some place what holds of its result and of what
is left, and what follows from failing and from being out of fuel. `Sound` says this of a parser
anywhere: the result is derived from exactly the tokens used, and fuel in proportion to the tokens
ahead does not run out. The rules of `Tokens.Uses` put parsers together and keep account of the
tokens used.
-/

namespace Roteiro

/-! ### tokens ahead -/

namespace Tokens

/-- The tokens ahead are followed by the end, which is not among them. -/
structure Ended (ts : Tokens) : Prop where
  finish : ts.finish.kind = .eof
  ahead : ∀ t ∈ ts.ahead, t.kind ≠ .eof

/-- Between `ts` and `rest` the tokens `used` were used. -/
structure Uses (ts : Tokens) (used : List Token) (rest : Tokens) : Prop where
  ahead : ts.ahead = used ++ rest.ahead
  finish : rest.finish = ts.finish

variable {ts mid rest : Tokens} {used more : List Token}

theorem Uses.refl (ts : Tokens) : ts.Uses [] ts := ⟨rfl, rfl⟩

theorem Uses.trans (h : ts.Uses used mid) (h' : mid.Uses more rest) :
    ts.Uses (used ++ more) rest :=
  ⟨by rw [h.ahead, h'.ahead, List.append_assoc], h'.finish.trans h.finish⟩

theorem Uses.ended (h : ts.Uses used rest) (hts : ts.Ended) : rest.Ended where
  finish := h.finish ▸ hts.finish
  ahead t ht := hts.ahead t (by rw [h.ahead]; exact List.mem_append_right used ht)

theorem Uses.length (h : ts.Uses used rest) :
    ts.ahead.length = used.length + rest.ahead.length := by
  rw [h.ahead, List.length_append]

/-- A current token that is not the end is used by advancing. -/
theorem Ended.uses_peek (hts : ts.Ended) (h : ts.peek.kind ≠ .eof) :
    ts.Uses [ts.peek] ts.advance := by
  obtain ⟨ahead, finish⟩ := ts
  cases ahead with
  | nil => exact absurd hts.finish h
  | cons t ahead => exact ⟨rfl, rfl⟩

theorem Ended.eq_nil (hts : ts.Ended) (h : ts.peek.kind = .eof) : ts.ahead = [] := by
  obtain ⟨ahead, finish⟩ := ts
  cases ahead with
  | nil => rfl
  | cons t ahead => exact absurd h (hts.ahead t (List.mem_cons_self ..))

end Tokens

/-! ### answers of parsers -/

namespace Parse

variable {α β : Type}

/-- The answer of a parser at `ts`: a result and what is left are as `Q` says, failing means `fails`,
and being out of fuel means `out`. -/
def Answers (p : Parse α) (ts : Tokens) (Q : α → Tokens → Prop) (fails out : Prop) : Prop :=
  match p ts with
  | .ok a rest => Q a rest
  | .fail _ _ => fails
  | .exhausted => out

section

variable {ts : Tokens} {Q : α → Tokens → Prop} {fails out : Prop}

theorem Answers.mono {p : Parse α} {Q' : α → Tokens → Prop} {out' : Prop}
    (h : p.Answers ts Q fails out) (hQ : ∀ a rest, Q a rest → Q' a rest) (hout : out → out') :
    p.Answers ts Q' fails out' := by
  unfold Answers at h ⊢
  split at h
  · exact hQ _ _ h
  · exact h
  · exact hout h

@[simp] theorem answers_pure (a : α) : (pure a : Parse α).Answers ts Q fails out ↔ Q a ts := Iff.rfl

@[simp] theorem answers_bind (p : Parse β) (f : β → Parse α) :
    (p >>= f).Answers ts Q fails out ↔
      p.Answers ts (fun b mid => (f b).Answers mid Q fails out) fails out := by
  have hbind : (p >>= f) ts = Parse.bind p f ts := rfl
  unfold Answers
  rw [hbind, Parse.bind]
  cases p ts with
  | ok b mid => exact Iff.rfl
  | fail e rest => exact Iff.rfl
  | exhausted => exact Iff.rfl

@[simp] theorem answers_exhausted : (exhausted : Parse α).Answers ts Q fails out ↔ out := Iff.rfl

@[simp] theorem answers_nonExpression (t : Token) :
    (nonExpression t : Parse α).Answers ts Q fails out ↔ fails := Iff.rfl

end

section

variable {ts : Tokens} {fails out : Prop}

@[simp] theorem answers_peek {Q : Token → Tokens → Prop} :
    peek.Answers ts Q fails out ↔ Q ts.peek ts := Iff.rfl

@[simp] theorem answers_peekSecond {Q : Token → Tokens → Prop} :
    peekSecond.Answers ts Q fails out ↔ Q ts.peekSecond ts := Iff.rfl

@[simp] theorem answers_advance {Q : Token → Tokens → Prop} :
    advance.Answers ts Q fails out ↔ Q ts.peek ts.advance := Iff.rfl

theorem answers_accept {Q : Bool → Tokens → Prop} (kind : Kind) :
    (accept kind).Answers ts Q fails out ↔
      (ts.peek.kind = kind → Q true ts.advance) ∧ (ts.peek.kind ≠ kind → Q false ts) := by
  unfold Answers accept
  by_cases h : ts.peek.kind = kind <;> simp [h]

theorem answers_expect {Q : Token → Tokens → Prop} (kind : Kind) :
    (expect kind).Answers ts Q fails out ↔
      (ts.peek.kind = kind → Q ts.peek ts.advance) ∧ (ts.peek.kind ≠ kind → fails) := by
  unfold Answers expect
  by_cases h : ts.peek.kind = kind
  · simp [h]
  · by_cases he : ts.peek.kind = .eof
    · simp [h, ← he]
    · simp [h, he]

theorem answers_ident {Q : Ident → Tokens → Prop} :
    ident.Answers ts Q fails out ↔
      (ts.peek.kind = .identifier → Q ⟨ts.peek.lexeme, ts.peek.span⟩ ts.advance) ∧
        (ts.peek.kind ≠ .identifier → fails) := by
  unfold ident
  rw [answers_bind, answers_expect]
  exact Iff.rfl

theorem answers_optional {p : Parse α} {Q : Option α → Tokens → Prop}
    (h : p.Answers ts (fun a rest => Q (some a) rest) True out) (hnone : Q none ts) :
    (optional p).Answers ts Q True out := by
  unfold Answers optional at *
  cases hp : p ts with
  | ok a rest => simpa [hp] using h
  | fail e rest =>
    by_cases he : rest.ahead.length = ts.ahead.length
    · simpa [he] using hnone
    · simp [he]
  | exhausted => simpa [hp] using h

end

/-- With `fuel` units, the results of a parser are derived from the tokens used, and it is out of fuel
only if these were at most sixteen for each token ahead and `rank` more. -/
def Sound (fuel rank : Nat) (p : Parse α) (D : List Token → α → Prop) : Prop :=
  ∀ ts : Tokens, ts.Ended →
    p.Answers ts (fun a rest => ∃ used, ts.Uses used rest ∧ D used a) True
      (fuel ≤ 16 * ts.ahead.length + rank)

end Parse

/-! ### one parser after another

The parsers below start at `ts` and stand at `mid`, after the tokens `used`. -/

namespace Tokens.Uses

open Parse

variable {α β : Type} {ts mid : Tokens} {used : List Token} {Q : β → Tokens → Prop} {out : Prop}

/-- A parser with one unit of fuel less. The tokens used so far, or its lower rank, make up for that
unit. -/
theorem run {fuel rank rank' : Nat} {p : Parse α} {D : List Token → α → Prop}
    {Q : α → Tokens → Prop} (hu : ts.Uses used mid) (hts : ts.Ended) (hp : Sound fuel rank p D)
    (hrank : rank < 16 * used.length + rank')
    (hQ : ∀ a more rest, ts.Uses (used ++ more) rest → D more a → Q a rest) :
    p.Answers mid Q True (fuel + 1 ≤ 16 * ts.ahead.length + rank') := by
  refine (hp mid (hu.ended hts)).mono ?_ ?_
  · rintro a rest ⟨more, hmore, hD⟩
    exact hQ a more rest (hu.trans hmore) hD
  · have := hu.length
    omega

theorem andThen {fuel rank rank' : Nat} {p : Parse α} {D : List Token → α → Prop} {f : α → Parse β}
    (hu : ts.Uses used mid) (hts : ts.Ended) (hp : Sound fuel rank p D)
    (hrank : rank < 16 * used.length + rank')
    (hf : ∀ a more rest, ts.Uses (used ++ more) rest → D more a →
      (f a).Answers rest Q True (fuel + 1 ≤ 16 * ts.ahead.length + rank')) :
    (p >>= f).Answers mid Q True (fuel + 1 ≤ 16 * ts.ahead.length + rank') :=
  (answers_bind p f).mpr (hu.run hts hp hrank hf)

theorem expect {f : Token → Parse β} (hu : ts.Uses used mid) (hts : ts.Ended) {kind : Kind}
    (hkind : kind ≠ .eof)
    (hf : ∀ t rest, ts.Uses (used ++ [t]) rest → t.kind = kind → (f t).Answers rest Q True out) :
    (Parse.expect kind >>= f).Answers mid Q True out := by
  rw [answers_bind, answers_expect]
  refine ⟨fun h => ?_, fun _ => trivial⟩
  exact hf _ _ (hu.trans ((hu.ended hts).uses_peek (h ▸ hkind))) h

theorem ident {f : Ident → Parse β} (hu : ts.Uses used mid) (hts : ts.Ended)
    (hf : ∀ t name rest, ts.Uses (used ++ [t]) rest → t.IsName name →
      (f name).Answers rest Q True out) :
    (Parse.ident >>= f).Answers mid Q True out := by
  rw [answers_bind, answers_ident]
  refine ⟨fun h => ?_, fun _ => trivial⟩
  exact hf mid.peek _ _ (hu.trans ((hu.ended hts).uses_peek (by simp [h]))) ⟨h, rfl⟩

theorem accept {f : Bool → Parse β} (hu : ts.Uses used mid) (hts : ts.Ended) {kind : Kind}
    (hkind : kind ≠ .eof)
    (hyes : ∀ t rest, ts.Uses (used ++ [t]) rest → t.kind = kind → (f true).Answers rest Q True out)
    (hno : mid.peek.kind ≠ kind → (f false).Answers mid Q True out) :
    (Parse.accept kind >>= f).Answers mid Q True out := by
  rw [answers_bind, answers_accept]
  refine ⟨fun h => ?_, hno⟩
  exact hyes _ _ (hu.trans ((hu.ended hts).uses_peek (h ▸ hkind))) h

/-- A comma that may be missing. -/
theorem comma {f : Bool → Parse β} (hu : ts.Uses used mid) (hts : ts.Ended)
    (hf : ∀ b comma rest, ts.Uses (used ++ comma) rest → OptionalComma comma →
      (f b).Answers rest Q True out) :
    (Parse.accept (.symbol .comma) >>= f).Answers mid Q True out :=
  hu.accept hts (by simp) (fun t rest hu ht => hf true [t] rest hu (.comma ht))
    fun _ => hf false [] mid (by simpa using hu) .missing

/-- Uses the current token, which was seen not to be the end. -/
theorem advance {f : Token → Parse β} (hu : ts.Uses used mid) (hts : ts.Ended)
    (h : mid.peek.kind ≠ .eof)
    (hf : ∀ rest, ts.Uses (used ++ [mid.peek]) rest → (f mid.peek).Answers rest Q True out) :
    (Parse.advance >>= f).Answers mid Q True out := by
  rw [answers_bind, answers_advance]
  exact hf _ (hu.trans ((hu.ended hts).uses_peek h))

end Tokens.Uses

end Roteiro
