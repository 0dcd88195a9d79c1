import Roteiro.Proofs.Parser.Soundness
import Roteiro.Proofs.Tree.Parts

/-!
The spans of a tree are nested and in order. The grammar cuts the tokens of a node into those of its
components, in the order of the source, so the components stand one after the other; and the span
of a node reaches from its first piece to its last one. A derivation is followed rule by rule
(`Derives.lays` and its companions), and since the tokens of a source stand in a row, so do the
parts of every script (`Program.spans_nested`).
-/

namespace Roteiro

/-! ### spans -/

namespace Span

/-- One span ends before another one starts. -/
def Before (s t : Span) : Prop :=
  s.stop ≤ t.start

/-- One span lies inside another one. -/
def Inside (s t : Span) : Prop :=
  t.start ≤ s.start ∧ s.stop ≤ t.stop

/-- A span from the start of a token to the end of one that does not stand before it. -/
def Covers (ts : List Token) (s : Span) : Prop :=
  ∃ a ∈ ts, ∃ b ∈ ts, a.span.start ≤ b.span.start ∧ s.start = a.span.start ∧ s.stop = b.span.stop

theorem Covers.mono {ts us : List Token} {s : Span} (h : s.Covers ts) (hsub : ts ⊆ us) :
    s.Covers us := by
  obtain ⟨a, ha, b, hb, hab⟩ := h
  exact ⟨a, hsub ha, b, hsub hb, hab⟩

/-- Two spans in order are merged from the start of the first to the end of the second. -/
theorem merge_of_before {s t : Span} (hs : s.start ≤ s.stop) (h : s.Before t)
    (ht : t.start ≤ t.stop) : (s.merge t).start = s.start ∧ (s.merge t).stop = t.stop := by
  unfold Before at h
  simp only [merge, between, stop] at *
  omega

/-- Spans in order are merged from the start of the first to the end of the last. -/
theorem foldl_merge {s last : Span} {spans : List Span}
    (hproper : ∀ t ∈ s :: spans, t.start ≤ t.stop) (hordered : (s :: spans).Pairwise Before)
    (hlast : spans.getLast? = some last) :
    (spans.foldl merge s).start = s.start ∧ (spans.foldl merge s).stop = last.stop := by
  induction spans generalizing s with
  | nil => cases hlast
  | cons t spans ih =>
    have hst : s.Before t := List.rel_of_pairwise_cons hordered (List.mem_cons_self ..)
    have hproper' : ∀ u ∈ t :: spans, u.start ≤ u.stop :=
      fun u hu => hproper u (List.mem_cons_of_mem s hu)
    obtain ⟨hstart, hstop⟩ :=
      merge_of_before (hproper s (List.mem_cons_self ..)) hst (hproper' t (List.mem_cons_self ..))
    cases spans with
    | nil =>
      obtain rfl : t = last := by simpa using hlast
      exact ⟨hstart, hstop⟩
    | cons u spans =>
      have hmerged : ∀ v ∈ s.merge t :: u :: spans, v.start ≤ v.stop := by
        intro v hv
        rcases List.mem_cons.mp hv with rfl | hv
        · have := hproper s (List.mem_cons_self ..)
          have := hproper' t (List.mem_cons_self ..)
          unfold Before at hst
          omega
        · exact hproper' v (List.mem_cons_of_mem t hv)
      have hrest : (s.merge t :: u :: spans).Pairwise Before := by
        refine .cons (fun v hv => ?_) (List.pairwise_cons.mp hordered).2.of_cons
        have : t.Before v := List.rel_of_pairwise_cons (List.pairwise_cons.mp hordered).2 hv
        unfold Before at this ⊢
        omega
      have := ih hmerged hrest (by simpa using hlast)
      rw [List.foldl_cons, this.1, this.2]
      exact ⟨hstart, rfl⟩

end Span

/-! ### tokens in a row -/

/-- Tokens one after the other, none of them empty. -/
structure Ordered (ts : List Token) : Prop where
  nonempty : ∀ t ∈ ts, t.span.start < t.span.stop
  increasing : ts.Pairwise fun t u => t.span.Before u.span

namespace Ordered

variable {ts us : List Token}

theorem left (h : Ordered (ts ++ us)) : Ordered ts where
  nonempty t ht := h.nonempty t (List.mem_append_left us ht)
  increasing := (List.pairwise_append.mp h.increasing).1

theorem right (h : Ordered (ts ++ us)) : Ordered us where
  nonempty t ht := h.nonempty t (List.mem_append_right ts ht)
  increasing := (List.pairwise_append.mp h.increasing).2.1

theorem start_lt_stop (h : Ordered ts) {s : Span} (hs : s.Covers ts) : s.start < s.stop := by
  obtain ⟨a, ha, b, hb, hab, hstart, hstop⟩ := hs
  have := h.nonempty b hb
  omega

/-- What is on the tokens in front stands before what is on the tokens behind. -/
theorem before (h : Ordered (ts ++ us)) {s t : Span} (hs : s.Covers ts) (ht : t.Covers us) :
    s.Before t := by
  obtain ⟨a, -, b, hb, -, -, hstop⟩ := hs
  obtain ⟨c, hc, d, -, -, hstart, -⟩ := ht
  have : b.span.Before c.span := (List.pairwise_append.mp h.increasing).2.2 b hb c hc
  unfold Span.Before at *
  omega

end Ordered

/-! ### parts in a row -/

/-- A node on tokens: its span reaches from token to token, and its components stand inside it, one
after the other. -/
structure Part.Placed (ts : List Token) (p : Part) : Prop where
  covers : p.span.Covers ts
  inside : ∀ c ∈ p.components, c.span.Inside p.span
  ordered : p.components.Pairwise fun c d => c.span.Before d.span

/-- A node that is placed on tokens, and so are all nodes in it. -/
inductive Part.Deep (ts : List Token) : Part → Prop
  | mk {p : Part} : p.Placed ts → (∀ c ∈ p.components, Part.Deep ts c) → Part.Deep ts p

namespace Part.Deep

variable {ts us : List Token} {p : Part}

theorem placed (h : p.Deep ts) : p.Placed ts := by
  cases h with
  | mk h _ => exact h

theorem component (h : p.Deep ts) : ∀ c ∈ p.components, c.Deep ts := by
  cases h with
  | mk _ h => exact h

theorem mono (h : p.Deep ts) (hsub : ts ⊆ us) : p.Deep us := by
  induction h with
  | mk h _ ih => exact .mk ⟨h.covers.mono hsub, h.inside, h.ordered⟩ ih

end Part.Deep

/-- Parts that stand in a row on tokens, if the tokens do. -/
def Lays (ts : List Token) (ps : List Part) : Prop :=
  Ordered ts → (∀ p ∈ ps, p.Deep ts) ∧ ps.Pairwise fun p q => p.span.Before q.span

/-- A token by itself, as if it were a name. -/
def Token.part (t : Token) : Part :=
  .ident ⟨t.lexeme, t.span⟩

namespace Lays

variable {ts us : List Token} {ps qs : List Part}

theorem nil (ts : List Token) : Lays ts [] :=
  fun _ => ⟨by simp, .nil⟩

theorem append (h : Lays ts ps) (h' : Lays us qs) : Lays (ts ++ us) (ps ++ qs) := by
  intro hrow
  obtain ⟨hps, hps'⟩ := h hrow.left
  obtain ⟨hqs, hqs'⟩ := h' hrow.right
  constructor
  · intro p hp
    rcases List.mem_append.mp hp with hp | hp
    · exact (hps p hp).mono (List.subset_append_left ts us)
    · exact (hqs p hp).mono (List.subset_append_right ts us)
  · refine List.pairwise_append.mpr ⟨hps', hqs', fun p hp q hq => ?_⟩
    exact hrow.before (hps p hp).placed.covers (hqs q hq).placed.covers

/-- A token that belongs to no part. -/
theorem skip (t : Token) (h : Lays ts ps) : Lays (t :: ts) ps :=
  (Lays.nil [t]).append h

/-- A node that reaches from the first to the last part of a row, and has components among them. -/
theorem around {first last p : Part} (h : Lays ts ps) (hfirst : ps.head? = some first)
    (hlast : ps.getLast? = some last) (hstart : p.span.start = first.span.start)
    (hstop : p.span.stop = last.span.stop) (hparts : p.components.Sublist ps) : Lays ts [p] := by
  intro hrow
  obtain ⟨hdeep, hordered⟩ := h hrow
  have hproper : ∀ q ∈ ps, q.span.start < q.span.stop :=
    fun q hq => hrow.start_lt_stop (hdeep q hq).placed.covers
  have hfrom : ∀ q ∈ ps, first.span.start ≤ q.span.start := by
    intro q hq
    obtain ⟨rest, rfl⟩ := List.head?_eq_some_iff.mp hfirst
    rcases List.mem_cons.mp hq with rfl | hq'
    · exact le_rfl
    · have hbefore : first.span.Before q.span := List.rel_of_pairwise_cons hordered hq'
      have := hproper first (List.mem_cons_self ..)
      unfold Span.Before at hbefore
      omega
  have hupto : ∀ q ∈ ps, q.span.stop ≤ last.span.stop := by
    intro q hq
    obtain ⟨init, rfl⟩ := List.getLast?_eq_some_iff.mp hlast
    rcases List.mem_append.mp hq with hq' | hq'
    · have hbefore : q.span.Before last.span :=
        (List.pairwise_append.mp hordered).2.2 q hq' last (List.mem_singleton_self last)
      have := hproper last (by simp)
      unfold Span.Before at hbefore
      omega
    · obtain rfl := List.mem_singleton.mp hq'
      exact le_rfl
  have hcovers : p.span.Covers ts := by
    obtain ⟨a, ha, -, -, -, ha', -⟩ := (hdeep first (List.mem_of_head? hfirst)).placed.covers
    obtain ⟨c, hc, d, hd, hcd, hc', hd'⟩ := (hdeep last (List.mem_of_getLast? hlast)).placed.covers
    have := hfrom last (List.mem_of_getLast? hlast)
    exact ⟨a, ha, d, hd, by omega, hstart.trans ha', hstop.trans hd'⟩
  have hinside : ∀ c ∈ p.components, c.span.Inside p.span := by
    intro c hc
    exact ⟨hstart ▸ hfrom c (hparts.subset hc), hstop ▸ hupto c (hparts.subset hc)⟩
  have hnode : p.Deep ts :=
    .mk ⟨hcovers, hinside, hordered.sublist hparts⟩ fun c hc => hdeep c (hparts.subset hc)
  exact ⟨by simpa using hnode, List.pairwise_singleton ..⟩

/-- A node around a single part. -/
theorem wrap {p q : Part} (h : Lays ts [q]) (hspan : p.span = q.span)
    (hparts : p.components.Sublist [q]) : Lays ts [p] :=
  h.around List.head?_cons List.getLast?_singleton (by rw [hspan]) (by rw [hspan]) hparts

/-- A token on its own. -/
theorem token (t : Token) : Lays [t] [t.part] := by
  intro _
  have hcovers : t.part.span.Covers [t] :=
    ⟨t, List.mem_singleton_self t, t, List.mem_singleton_self t, le_rfl, rfl, rfl⟩
  have hnone : t.part.components = [] := rfl
  have hdeep : t.part.Deep [t] := .mk ⟨hcovers, by simp [hnone], by simp [hnone]⟩ (by simp [hnone])
  exact ⟨by simpa using hdeep, List.pairwise_singleton ..⟩

theorem name {t : Token} {x : Ident} (h : t.IsName x) : Lays [t] [.ident x] := by
  rw [h.2]
  exact token t

/-- A node whose span is merged from the first and the last part of a row. -/
theorem between {first p : Part} (h : Lays ts (first :: ps)) (last : Part)
    (hlast : ps.getLast? = some last) (hspan : p.span = first.span.merge last.span)
    (hparts : p.components.Sublist (first :: ps)) : Lays ts [p] := by
  intro hrow
  obtain ⟨hdeep, hordered⟩ := h hrow
  have hmem : last ∈ ps := List.mem_of_getLast? hlast
  have hproper : ∀ q ∈ first :: ps, q.span.start ≤ q.span.stop :=
    fun q hq => (hrow.start_lt_stop (hdeep q hq).placed.covers).le
  obtain ⟨hstart, hstop⟩ := Span.merge_of_before (hproper first (List.mem_cons_self ..))
    (List.rel_of_pairwise_cons hordered hmem) (hproper last (List.mem_cons_of_mem _ hmem))
  have hlast' : (first :: ps).getLast? = some last := by
    simp [List.getLast?_cons, hlast]
  exact h.around rfl hlast' (hspan ▸ hstart) (hspan ▸ hstop) hparts hrow

/-- A node between two tokens. -/
theorem enclosed (opening closing : Token) {p : Part} (h : Lays ts ps)
    (hspan : p.span = opening.span.merge closing.span) (hparts : p.components = ps) :
    Lays (opening :: (ts ++ [closing])) [p] := by
  have hrow : Lays (opening :: (ts ++ [closing])) (opening.part :: (ps ++ [closing.part])) :=
    (token opening).append (h.append (token closing))
  refine hrow.between closing.part (by simp) hspan (.cons _ ?_)
  rw [hparts]
  exact List.sublist_append_left ..

end Lays

/-! ### derivations -/

theorem DerivesParameters.lays {ts : List Token} {names : List Ident}
    (h : DerivesParameters ts names) : Lays ts (names.map .ident) := by
  induction h with
  | nil => exact .nil []
  | cons ht _ _ ih => exact (Lays.name ht).append ((Lays.nil _).append ih)

/-- What an assignment writes to has the components of the expression on the left. -/
theorem Expression.IsTarget.components {e : Expression} {target : Target} (h : e.IsTarget target) :
    target.components = e.components := by
  cases h with
  | name => rfl
  | property => rfl

/-- An assignment reaches from its left side to its value, and has the components of the one and
the other as a whole. -/
theorem Lays.assignment {ts : List Token} {left value : Expression} {target : Target}
    (h : Lays ts [.expression left, .expression value]) (htarget : left.IsTarget target) :
    Lays ts [.assignment (.mk target value (left.span.merge value.span))] := by
  intro hrow
  obtain ⟨hdeep, hordered⟩ := h hrow
  have hleft := hdeep (.expression left) (by simp)
  have hvalue := hdeep (.expression value) (by simp)
  have hbefore : left.span.Before value.span := by simpa [Part.span] using hordered
  have hproper : left.span.start ≤ left.span.stop := (hrow.start_lt_stop hleft.placed.covers).le
  have hproper' : value.span.start ≤ value.span.stop :=
    (hrow.start_lt_stop hvalue.placed.covers).le
  obtain ⟨hstart, hstop⟩ := Span.merge_of_before hproper hbefore hproper'
  have hparts : (Part.assignment (.mk target value (left.span.merge value.span))).components =
      left.components ++ [.expression value] := by
    rw [← htarget.components]
    rfl
  have hinside : ∀ c ∈ left.components, c.span.Inside left.span := hleft.placed.inside
  unfold Span.Before at hbefore
  refine ⟨?_, List.pairwise_singleton ..⟩
  intro p hp
  obtain rfl := List.mem_singleton.mp hp
  refine .mk ⟨?_, ?_, ?_⟩ ?_
  · obtain ⟨a, ha, -, -, -, ha', -⟩ := hleft.placed.covers
    obtain ⟨c, -, d, hd, hcd, hc', hd'⟩ := hvalue.placed.covers
    simp only [Part.span] at ha' hc' hd'
    exact ⟨a, ha, d, hd, by omega, hstart.trans ha', hstop.trans hd'⟩
  · rw [hparts]
    intro c hc
    show (left.span.merge value.span).start ≤ _ ∧ _ ≤ (left.span.merge value.span).stop
    rcases List.mem_append.mp hc with hc | hc
    · have := hinside c hc
      unfold Span.Inside at this
      omega
    · obtain rfl := List.mem_singleton.mp hc
      simp only [Part.span]
      omega
  · rw [hparts]
    refine List.pairwise_append.mpr ⟨hleft.placed.ordered, List.pairwise_singleton .., ?_⟩
    intro c hc d hd
    obtain rfl := List.mem_singleton.mp hd
    exact (hinside c hc).2.trans hbefore
  · rw [hparts]
    intro c hc
    rcases List.mem_append.mp hc with hc | hc
    · exact hleft.component c hc
    · exact List.mem_singleton.mp hc ▸ hvalue

/-- A routine reaches from its first word to its last one. -/
theorem Lays.routine {ns ps bs : List Token} {word opening closing fim : Token}
    {name : Option Ident} {parameters : List Ident} {body : List Statement}
    (hn : Lays ns (name.toList.map .ident)) (hp : Lays ps (parameters.map .ident))
    (hb : Lays bs (body.map .statement)) :
    Lays (word :: (ns ++ opening :: (ps ++ closing :: (bs ++ [fim]))))
      [.routine (.mk name parameters body (word.span.merge fim.span))] := by
  have hrow := (token word).append (hn.append ((hp.append ((hb.append (token fim)).skip closing)
    ).skip opening))
  refine hrow.between fim.part (by simp) rfl ?_
  exact .cons _ (((List.sublist_append_left ..).append_left _).append_left _)

/-- A return reaches from its word to the last of its values. -/
theorem Lays.returned {ts : List Token} {word : Token} {values : List Expression}
    (h : Lays ts (word.part :: values.map .expression)) (hne : values ≠ []) :
    Lays ts [.statement (.returnValues values
      (values.foldl (fun s e => s.merge e.span) word.span))] := by
  intro hrow
  obtain ⟨hdeep, hordered⟩ := h hrow
  have hspans : (word.part :: values.map .expression).map Part.span =
      word.span :: values.map Expression.span := by
    rw [List.map_cons, List.map_map]
    rfl
  have hproper : ∀ t ∈ word.span :: values.map Expression.span, t.start ≤ t.stop := by
    rw [← hspans]
    intro t ht
    obtain ⟨q, hq, rfl⟩ := List.mem_map.mp ht
    exact (hrow.start_lt_stop (hdeep q hq).placed.covers).le
  have hpairs : (word.span :: values.map Expression.span).Pairwise Span.Before := by
    rw [← hspans]
    exact List.pairwise_map.mpr hordered
  have hlast := List.getLast?_eq_some_getLast hne
  obtain ⟨hstart, hstop⟩ := Span.foldl_merge hproper hpairs (by rw [List.getLast?_map, hlast]; rfl)
  rw [List.foldl_map] at hstart hstop
  have hend : (word.part :: values.map .expression).getLast? =
      some (.expression (values.getLast hne)) := by
    rw [List.getLast?_cons, List.getLast?_map, hlast]
    rfl
  exact h.around rfl hend hstart hstop (.cons _ (.refl _)) hrow

theorem Token.IsLeaf.lays {t : Token} {a : Atom} (h : t.IsLeaf a) :
    Lays [t] [.expression (.atom a t.span)] := by
  refine (Lays.token t).wrap rfl ?_
  cases h with
  | identifier => exact .refl _
  | _ => exact List.nil_sublist _

mutual

/-- The tokens of an expression carry it as a node. -/
theorem Derives.lays {level : Level} {ts : List Token} {e : Expression} :
    Derives level ts e → Lays ts [.expression e]
  | .operand h => h.lays
  | @Derives.binary op ls rs t left right hl _ hr => by
    have hrow : Lays (ls ++ t :: rs) [.expression left, .expression right] :=
      hl.lays.append (hr.lays.skip t)
    exact hrow.between (.expression right) rfl rfl (.refl _)
  | @Derives.negate t ts e _ h => by
    have hrow : Lays (t :: ts) [t.part, .expression e] := (Lays.token t).append h.lays
    exact hrow.between (.expression e) rfl rfl (.cons _ (.refl _))
  | .suffixed h => h.lays
  | @Derives.call fs ts opening closing callee arguments hf _ hs _ => by
    have hrow : Lays (fs ++ opening :: (ts ++ [closing]))
        (.expression callee :: (arguments.map .expression ++ [closing.part])) :=
      hf.lays.append ((hs.lays.append (Lays.token closing)).skip opening)
    exact hrow.between closing.part (by simp) rfl (.cons_cons _ (List.sublist_append_left ..))
  | @Derives.field os dot t object name ho _ ht => by
    have hkey : Lays [t] [.expression (.atom (.string name.text) name.span)] :=
      (Lays.name ht).wrap rfl (List.nil_sublist _)
    have hrow := ho.lays.append (hkey.skip dot)
    exact hrow.between (.expression (.atom (.string name.text) name.span)) rfl rfl (.refl _)
  | @Derives.index os ks opening closing object key ho _ hk _ => by
    have hrow : Lays (os ++ opening :: (ks ++ [closing]))
        (.expression object :: .expression key :: [closing.part]) :=
      ho.lays.append ((hk.lays.append (Lays.token closing)).skip opening)
    exact hrow.between closing.part rfl rfl
      (.cons_cons _ (.cons_cons _ (List.nil_sublist _)))
  | .primary h => h.lays
  | .leaf h => h.lays
  | .parens _ h _ => (h.lays.append (Lays.nil [_])).skip _
  | .array _ h _ => h.lays.enclosed _ _ rfl rfl
  | .dictionary _ h _ => h.lays.enclosed _ _ rfl rfl
  | .function h _ => h.lays.wrap rfl (.refl _)

theorem DerivesItems.lays {ts : List Token} {es : List Expression} :
    DerivesItems ts es → Lays ts (es.map .expression)
  | .nil => .nil []
  | .cons h _ h' => h.lays.append ((Lays.nil _).append h'.lays)

theorem DerivesEntries.lays {ts : List Token} {entries : List Entry} :
    DerivesEntries ts entries → Lays ts (entries.flatMap Entry.components)
  | .nil => .nil []
  | .cons hk _ hv _ h =>
    hk.lays.append ((hv.lays.append ((Lays.nil _).append h.lays)).skip _)

theorem DerivesKey.lays {ts : List Token} {key : Key} : DerivesKey ts key → Lays ts [key.part]
  | .name ht => .name ht
  | .bracketed _ ht _ => ((Lays.name ht).append (Lays.nil [_])).skip _
  | .computed _ h _ _ => (h.lays.append (Lays.nil [_])).skip _

theorem DerivesRoutine.lays {ts : List Token} {routine : Routine} :
    DerivesRoutine ts routine → Lays ts [.routine routine]
  | .anonymous _ _ hp _ hb _ =>
    have hname : Lays [] ((none : Option Ident).toList.map .ident) := Lays.nil []
    hname.routine hp.lays hb.lays
  | .named _ ht _ hp _ hb _ =>
    have hname : Lays [_] ((some _).toList.map .ident) := Lays.name ht
    hname.routine hp.lays hb.lays

theorem DerivesBody.lays {ts : List Token} {body : List Statement} :
    DerivesBody ts body → Lays ts (body.map .statement)
  | .nil => .nil []
  | .cons h h' => h.lays.append h'.lays

theorem DerivesAssignment.lays {ts : List Token} {a : Assignment} :
    DerivesAssignment ts a → Lays ts [.assignment a]
  | .mk hl ht _ hv => (hl.lays.append (hv.lays.skip _)).assignment ht

theorem DerivesClause.lays {keyword : Keyword} {ts : List Token} {e : Option Expression} :
    DerivesClause keyword ts e → Lays ts (e.toList.map .expression)
  | .missing _ => .nil []
  | .given _ h => h.lays.skip _

theorem DerivesStep.lays {ts : List Token} {a : Option Assignment} :
    DerivesStep ts a → Lays ts (a.toList.map .assignment)
  | .missing => .nil []
  | .given _ h => h.lays.skip _

/-- The word that closes the last branch is kept, for the conditional may end there. -/
theorem DerivesBranches.lays {ts : List Token} {branches : List Branch} {last : Token} :
    DerivesBranches ts branches last → Lays ts (branches.flatMap Branch.components ++ [last.part])
  | .single hc _ hb _ => by
    simpa [Branch.components] using
      hc.lays.append ((hb.lays.append (Lays.token last)).skip _)
  | .more hc _ hb _ _ h => by
    simpa [Branch.components] using
      hc.lays.append ((hb.lays.append ((h.lays.skip _).skip _)).skip _)

theorem DerivesMoreValues.lays {ts : List Token} {es : List Expression} :
    DerivesMoreValues ts es → Lays ts (es.map .expression)
  | .nil => .nil []
  | .cons _ h h' => (h.lays.append h'.lays).skip _

theorem DerivesStatement.lays {ts : List Token} {s : Statement} :
    DerivesStatement ts s → Lays ts [.statement s]
  | @DerivesStatement.declaration word t equal vs name value _ ht _ hv => by
    have hrow : Lays (word :: t :: equal :: vs) [word.part, .ident name, .expression value] :=
      (Lays.token word).append ((Lays.name ht).append (hv.lays.skip equal))
    exact hrow.between (.expression value) rfl rfl (.cons _ (.refl _))
  | .assignment h => h.lays.wrap rfl (.refl _)
  | .expression h => h.lays.wrap rfl (.refl _)
  | .block _ h _ => h.lays.enclosed _ _ rfl rfl
  | @DerivesStatement.whileLoop word faca fim cs bs condition body _ hc _ hb _ => by
    have hrow : Lays (word :: (cs ++ faca :: (bs ++ [fim])))
        (word.part :: .expression condition :: (body.map .statement ++ [fim.part])) :=
      (Lays.token word).append (hc.lays.append ((hb.lays.append (Lays.token fim)).skip faca))
    exact hrow.between fim.part (by simp [List.getLast?_cons]) rfl
      (.cons _ (.cons_cons _ (List.sublist_append_left ..)))
  | @DerivesStatement.countLoop word t faca fim fs ls ss bs counter first limit step body _ ht hf hl
      hs _ hb _ => by
    have hrow : Lays (word :: t :: (fs ++ (ls ++ (ss ++ faca :: (bs ++ [fim])))))
        (word.part :: .ident counter :: (first.toList.map .expression ++
          (limit.toList.map .expression ++ (step.toList.map .assignment ++
            (body.map .statement ++ [fim.part]))))) :=
      (Lays.token word).append ((Lays.name ht).append (hf.lays.append (hl.lays.append
        (hs.lays.append ((hb.lays.append (Lays.token fim)).skip faca)))))
    refine hrow.between fim.part (by simp [List.getLast?_cons]) rfl (.cons _ (.cons_cons _ ?_))
    exact (((List.sublist_append_left ..).append_left _).append_left _).append_left _
  | @DerivesStatement.eachLoop word cada t comma u em faca fim cs bs key value collection body _ _
      ht _ hu _ hc _ hb _ => by
    have hrow : Lays (word :: cada :: t :: comma :: u :: em :: (cs ++ faca :: (bs ++ [fim])))
        (word.part :: .ident key :: .ident value :: .expression collection ::
          (body.map .statement ++ [fim.part])) :=
      (Lays.token word).append (((Lays.name ht).append (((Lays.name hu).append ((hc.lays.append
        ((hb.lays.append (Lays.token fim)).skip faca)).skip em)).skip comma)).skip cada)
    refine hrow.between fim.part (by simp [List.getLast?_cons]) rfl (.cons _ ?_)
    exact .cons_cons _ (.cons_cons _ (.cons_cons _ (List.sublist_append_left ..)))
  | .function h _ => h.lays.wrap rfl (.refl _)
  | @DerivesStatement.conditional word last bs branches _ h => by
    have hrow : Lays (word :: bs) (word.part :: (branches.flatMap Branch.components ++ [last.part])) :=
      (Lays.token word).append h.lays
    exact hrow.between last.part (by simp) rfl (.cons _ ((List.nil_sublist _).append_left _))
  | @DerivesStatement.conditionalElse word last senao faca fim bs os branches otherwise _ h _ _ ho
      _ => by
    have hrow : Lays (word :: (bs ++ senao :: faca :: (os ++ [fim])))
        (word.part :: ((branches.flatMap Branch.components ++ [last.part]) ++
          (otherwise.map .statement ++ [fim.part]))) :=
      (Lays.token word).append
        (h.lays.append (((ho.lays.append (Lays.token fim)).skip faca).skip senao))
    refine hrow.between fim.part (by simp [List.getLast?_cons]) rfl (.cons _ ?_)
    exact (List.sublist_append_left ..).append (List.sublist_append_left ..)
  | @DerivesStatement.breakLoop word _ => (Lays.token word).wrap rfl (List.nil_sublist _)
  | @DerivesStatement.continueLoop word _ => (Lays.token word).wrap rfl (List.nil_sublist _)
  | @DerivesStatement.returnNothing word _ => (Lays.token word).wrap rfl (List.nil_sublist _)
  | @DerivesStatement.returnValues word ts rest first more _ h h' => by
    have hrow : Lays (word :: (ts ++ rest)) (word.part :: (first :: more).map .expression) :=
      (Lays.token word).append (h.lays.append h'.lays)
    exact hrow.returned (by simp)

end

/-! ### scripts -/

/-- The tokens of a source tile it. -/
theorem TokensOf.tiles {source : String} {ts : List Token} {finish : Token}
    (h : TokensOf source ts finish) : Tiles source.toList 0 (ts.map .ok) := by
  obtain ⟨n, htiles, -, hitems⟩ := Lexer.answers_tile (.ofText source) source.toList 0
    (source.toList.length + 1) (by omega)
  have hcut : (List.range n).map (Lexer.ofText source).answer ++
      [(Lexer.ofText source).answer n] = ts.map .ok ++ [.ok finish] := by
    have := hitems.symm.trans h.items
    rwa [List.range_succ, List.map_append, List.map_append] at this
  rw [← (List.append_inj' hcut rfl).1]
  exact htiles

theorem TokensOf.ordered {source : String} {ts : List Token} {finish : Token}
    (h : TokensOf source ts finish) : Ordered ts where
  nonempty t ht := by
    have := h.tiles.nonempty (.ok t) (List.mem_map_of_mem ht)
    simp only [spanOf] at this
    unfold Span.stop
    omega
  increasing := by
    have := h.tiles.ordered
    rwa [List.pairwise_map] at this

/-- The nodes of a script are deep if its statements are. -/
theorem Program.Has.deep {program : Program} {ts : List Token} {p : Part} (h : program.Has p)
    (hdeep : ∀ s ∈ program.statements, (Part.statement s).Deep ts) : p.Deep ts := by
  induction h with
  | statement hs => exact hdeep _ hs
  | component _ hc ih => exact ih.component _ hc

/-- The statements of a script are derived from the tokens of its source. -/
theorem Program.derivesBody {source : String} {program : Program}
    (h : Program.ofText source = .ok program) : ∃ ts finish, TokensOf source ts finish ∧
      DerivesBody ts program.statements ∧ program.span = ⟨0, source.utf8ByteSize⟩ := by
  unfold Program.ofText Parser.program at h
  cases hrun : ((Parser.ofText source).run Parse.statements).1 with
  | error e => simp [hrun, Except.map] at h
  | ok statements =>
    obtain rfl : (⟨statements, (Parser.ofText source).whole⟩ : Program) = program := by
      simpa [hrun, Except.map] using h
    obtain ⟨ts, finish, rest, hts, hp⟩ := Parser.run_eq_ok hrun
    have hbody := Parse.statements_answers (Tokens.mk ts finish).fuel _ hts.ended
    rw [Parse.Answers, hp] at hbody
    exact ⟨ts, finish, hts, hbody, rfl⟩

/-- **The spans of a tree are nested and in order.** The span of every node of a script reaches from
token to token, those of its components lie inside it, one after the other, and so do those of the
statements of the script. -/
theorem Program.spans_nested (source : String) (program : Program)
    (h : Program.ofText source = .ok program) :
    ∃ ts finish, TokensOf source ts finish ∧ Ordered ts ∧ (∀ p, program.Has p → p.Placed ts) ∧
      (∀ s ∈ program.statements, s.span.Inside program.span) ∧
      program.statements.Pairwise fun s t => s.span.Before t.span := by
  obtain ⟨ts, finish, hts, hbody, hspan⟩ := Program.derivesBody h
  obtain ⟨hdeep, hordered⟩ := hbody.lays hts.ordered
  rw [List.forall_mem_map] at hdeep
  refine ⟨ts, finish, hts, hts.ordered, fun p hp => (hp.deep hdeep).placed, fun s hs => ?_, ?_⟩
  · obtain ⟨a, -, b, hb, -, -, hstop⟩ := (hdeep s hs).placed.covers
    have hinside : b.span.stop ≤ source.utf8ByteSize :=
      hts.tiles.tiling.inside (.ok b) (List.mem_map_of_mem hb)
    have hlast : s.span.stop = b.span.stop := hstop
    rw [hspan]
    constructor
    · exact Nat.zero_le _
    · show s.span.stop ≤ 0 + source.utf8ByteSize
      omega
  · rwa [List.pairwise_map] at hordered

/-- Parentheses are outside the span of what they hold, so the assignment ends before the last of
them. -/
theorem Program.spans_nested_parens : ∃ program,
    Program.ofText "x = y + (z)" = .ok program ∧
    ∃ ts finish, TokensOf "x = y + (z)" ts finish ∧ Ordered ts ∧
      (∀ p, program.Has p → p.Placed ts) ∧
      (∀ s ∈ program.statements, s.span.Inside program.span) ∧
      program.statements.Pairwise fun s t => s.span.Before t.span := by
  have htokens : TokensOf "x = y + (z)"
      [⟨.identifier, "x", ⟨0, 1⟩, 1⟩, ⟨.symbol .equal, "=", ⟨2, 1⟩, 1⟩,
        ⟨.identifier, "y", ⟨4, 1⟩, 1⟩, ⟨.symbol .plus, "+", ⟨6, 1⟩, 1⟩,
        ⟨.symbol .leftParen, "(", ⟨8, 1⟩, 1⟩, ⟨.identifier, "z", ⟨9, 1⟩, 1⟩,
        ⟨.symbol .rightParen, ")", ⟨10, 1⟩, 1⟩] ⟨.eof, "", ⟨11, 0⟩, 1⟩ :=
    ⟨by decide +kernel, rfl, by decide⟩
  have hprogram : Program.ofText "x = y + (z)" = .ok ⟨[.assignment (.mk (.name ⟨"x", ⟨0, 1⟩⟩)
      (.binary .add (.atom (.identifier ⟨"y", ⟨4, 1⟩⟩) ⟨4, 1⟩)
        (.atom (.identifier ⟨"z", ⟨9, 1⟩⟩) ⟨9, 1⟩) ⟨4, 6⟩) ⟨0, 10⟩)], ⟨0, 11⟩⟩ := by
    rw [Program.ofText, Parser.program]
    dsimp only
    rw [htokens.run]
    rfl
  exact ⟨_, hprogram, Program.spans_nested _ _ hprogram⟩

end Roteiro
