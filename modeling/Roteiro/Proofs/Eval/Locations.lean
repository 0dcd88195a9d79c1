import Roteiro.Proofs.Eval.Pointing
import Roteiro.Proofs.Flow.Soundness
import Roteiro.Proofs.Parser.Spans
import Roteiro.Proofs.Source.Lines

/-!
Where a running script fails. A script made from a source runs in a world that has only the functions
of the library, so its errors stand at its nodes (`Session.points`). Those lie on the tokens of the
source, and what a listing says of an error is the line on which its node starts
(`Program.errors_located`).
-/

namespace Roteiro

open Decimal Eval String

variable {σ : Type}

/-! ### nodes -/

/-- The nodes of a script lie on the tokens of its source. -/
theorem Program.Marks.covers {program : Program} {ts : List Token} {span : Span}
    (h : program.Marks span) (deep : ∀ s ∈ program.statements, (Part.statement s).Deep ts) :
    span.Covers ts := by
  cases h with
  | statement h => exact (h.deep deep).placed.covers
  | expression h => exact (h.deep deep).placed.covers
  | assignment h => exact (h.deep deep).placed.covers
  | ident h => exact (h.deep deep).placed.covers

/-- What is on the tokens of a source starts after a part of it and ends inside it. -/
theorem Span.Covers.cut {source : String} {ts : List Token} {finish : Token} {span : Span}
    (h : span.Covers ts) (tokens : TokensOf source ts finish) :
    span.stop ≤ source.utf8ByteSize ∧
      ∃ before after, source = before ++ after ∧ before.utf8ByteSize = span.start := by
  obtain ⟨a, ha, b, hb, -, start, stop⟩ := h
  have tiling := tokens.tiles.tiling
  constructor
  · rw [stop]
    exact tiling.inside (.ok b) (List.mem_map_of_mem hb)
  · obtain ⟨before, after, hsource, hbefore, -⟩ := tiling.slices a (List.mem_map_of_mem ha)
    exact ⟨before, a.lexeme ++ after, by rw [hsource, String.append_assoc], by rw [hbefore, start]⟩

/-! ### runs -/

/-- The errors of a script stand at its nodes, in every world that has no functions but its own. -/
theorem Session.points (s : Session) (fuel : Nat) :
    Points s.program (Value.From s.program) (s.rest .none fuel) := by
  rw [s.rest_none]
  exact (Observer.none_silent.pointing fuel).runStatements Observer.none_silent.locatingOpenly .null
    trivial (fun _ member => .statement (List.mem_of_mem_drop member)) s.context

theorem Session.marks_of_error {o : Observer σ} (harmless : o.Harmless) (s : Session) (fuel : Nat)
    (m : Machine σ) (admits : m.world.Admits (Closure.From s.program)) {e : RuntimeError}
    (failed : (s.rest o fuel m).1 = .error e) : s.program.Marks e.span := by
  have points := (s.points fuel ⟨m.world, ()⟩ admits).1
  rw [s.rest_unobserved harmless m, failed] at points
  exact points

/-- **The errors of a running script are located in its source.** Whatever a script reads and draws
at random, and whoever watches it without ending it, the span of an error is that of a statement, an
expression, an assignment or a name of the script. It reaches from token to token, inside the source,
and the line of the error in a listing is the one on which the node starts, counted in words of 32
bits. -/
theorem Program.errors_located {o : Observer σ} (harmless : o.Harmless) (source : String)
    (program : Program) (parsed : Program.ofText source = .ok program) (watch : σ) (fuel : Nat)
    (terminal : Terminal) (dice : Dice) (seed : Nat) (e : RuntimeError)
    (failed : (program.runWith o watch fuel { terminal, dice, seed }).1 = .error e) :
    program.Marks e.span ∧
    ∃ ts finish, TokensOf source ts finish ∧ e.span.Covers ts ∧
      e.span.stop ≤ source.utf8ByteSize ∧
      ∃ before after, source = before ++ after ∧ before.utf8ByteSize = e.span.start ∧
        e.basic (.ofText source) =
          "(" ++ natText ((before.toList.count '\n' + 1) % UInt32.size) ++ ") " ++
            e.fault.message := by
  obtain ⟨ts, finish, tokens, body, -⟩ := Program.derivesBody parsed
  have deep := (body.lays tokens.ordered).1
  rw [List.forall_mem_map] at deep
  have marked : program.Marks e.span := by
    unfold Program.runWith at failed
    exact Session.marks_of_error harmless _ fuel _ (World.admits_new terminal dice seed).newGlobal failed
  have covers := marked.covers deep
  obtain ⟨inside, before, after, rfl, start⟩ := covers.cut tokens
  refine ⟨marked, ts, finish, tokens, covers, inside, before, after, rfl, start, ?_⟩
  unfold RuntimeError.basic Lines.lineOf
  rw [← start, Lines.lineAt_utf8ByteSize]

/-- Whether a run ended with an error can be decided, whatever its values are. -/
instance Outcome.decidableError {α : Type} (r : Outcome α) (e : RuntimeError) :
    Decidable (r = .error e) :=
  match r with
  | .error e' => decidable_of_iff (e' = e) (by simp)
  | .ok _ => .isFalse nofun
  | .exhausted => .isFalse nofun
  | .aborted => .isFalse nofun

/-- A function that breaks a loop it is not in fails on the line of the break, not of the call. -/
theorem Program.errors_located_in_call :
    let source := "funcao f()\nparar\nfim\nf()"
    let program : Program :=
      ⟨[.function (.mk (some ⟨"f", ⟨7, 1⟩⟩) [] [.breakLoop ⟨11, 5⟩] ⟨0, 20⟩),
        .expression (.call (.atom (.identifier ⟨"f", ⟨21, 1⟩⟩) ⟨21, 1⟩) [] ⟨21, 3⟩)], ⟨0, 24⟩⟩
    let e : RuntimeError := ⟨.noLoop, ⟨11, 5⟩⟩
    Observer.none.Harmless ∧ Program.ofText source = .ok program ∧
    (program.runWith .none () 4 { terminal := .captured [], seed := 1 }).1 = .error e ∧
    program.Marks e.span ∧
    ∃ ts finish, TokensOf source ts finish ∧ e.span.Covers ts ∧
      e.span.stop ≤ source.utf8ByteSize ∧
      ∃ before after, source = before ++ after ∧ before.utf8ByteSize = e.span.start ∧
        e.basic (.ofText source) =
          "(" ++ natText ((before.toList.count '\n' + 1) % UInt32.size) ++ ") " ++
            e.fault.message := by
  intro source program e
  have tokens : TokensOf source
      [⟨.keyword .funcao, "funcao", ⟨0, 6⟩, 1⟩, ⟨.identifier, "f", ⟨7, 1⟩, 1⟩,
        ⟨.symbol .leftParen, "(", ⟨8, 1⟩, 1⟩, ⟨.symbol .rightParen, ")", ⟨9, 1⟩, 1⟩,
        ⟨.keyword .parar, "parar", ⟨11, 5⟩, 2⟩, ⟨.keyword .fim, "fim", ⟨17, 3⟩, 3⟩,
        ⟨.identifier, "f", ⟨21, 1⟩, 4⟩, ⟨.symbol .leftParen, "(", ⟨22, 1⟩, 4⟩,
        ⟨.symbol .rightParen, ")", ⟨23, 1⟩, 4⟩] ⟨.eof, "", ⟨24, 0⟩, 4⟩ :=
    ⟨by decide +kernel, rfl, by decide⟩
  have parsed : Program.ofText source = .ok program := by
    rw [Program.ofText, Parser.program]
    dsimp only
    rw [tokens.run]
    rfl
  have failed : (program.runWith .none () 4 { terminal := .captured [], seed := 1 }).1 = .error e := by
    decide +kernel
  exact ⟨Observer.none_harmless, parsed, failed,
    Program.errors_located Observer.none_harmless source program parsed () 4 (.captured [])
      .congruential 1 e failed⟩

end Roteiro
