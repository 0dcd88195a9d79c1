import Roteiro.Cli.Arguments
import Roteiro.Debug.Console
import Roteiro.Parser.Source
import Roteiro.Report
import Roteiro.Tree.Dump

/-!
The command line as a function: from the arguments, the files that can be read and the lines typed,
to an exit code and what is written to the two outputs.
-/

namespace Roteiro.Cli

/-- The exit code of a script that is not well formed. -/
def compileErrorCode : Nat := 65

/-- The exit code of a script that failed. -/
def runtimeErrorCode : Nat := 70

/-- The exit code of arguments that are not understood. -/
def usageCode : Nat := 2

/-- The exit code of a program that broke off: a file or the commands cannot be read, or a script
asks for what cannot be carried out. -/
def abortCode : Nat := 101

/-- What is written about errors: lines of text, or reports to be drawn. -/
inductive Complaint where
  | text (text : String)
  | reports (reports : List Report)
  deriving Repr, DecidableEq

/-- The end of a run of the program. -/
structure Result where
  code : Nat
  output : List Output := []
  complaint : Complaint := .text ""

/-- An error in all formats. -/
structure Explained where
  dump : String
  basic : String
  report : Report

/-- An error in one format, lines being ended. -/
def Explained.line (format : Format) (e : Explained) : String :=
  match format with
  | .debug => e.dump ++ "\n"
  | _ => e.basic ++ "\n"

/-- What is written about some errors. -/
def complain (format : Format) (errors : List Explained) : Complaint :=
  match format, errors with
  | _, [] => .text ""
  | .pretty, errors => .reports (errors.map Explained.report)
  | format, errors => .text (String.join (errors.map (Explained.line format)))

/-- A lexical error in all formats. -/
def explainLexical (lines : Lines) (e : LexicalError) : Explained :=
  ⟨e.dump, e.basic lines, e.report⟩

/-- A syntax error in all formats. -/
def explainSyntax (lines : Lines) (e : SyntaxError) : Explained :=
  ⟨e.dump, e.basic lines, e.report⟩

/-- An error of a running script in all formats. -/
def explainRuntime (lines : Lines) (e : RuntimeError) : Explained :=
  ⟨e.dump, e.basic lines, e.report⟩

/-- A token in one format. -/
def tokenText (format : Format) (t : Token) : String :=
  match format with
  | .debug => t.dump
  | .basic => t.basic
  | .pretty => t.pretty

/-- Lists the tokens of a source. -/
def tokenize (source : String) (format : Format) : Result :=
  let items := Roteiro.tokenize source
  let lines := Lines.ofText source
  let tokens := items.filterMap Except.toOption
  let errors := items.filterMap fun
    | .error e => some (explainLexical lines e)
    | .ok _ => none
  { code := if errors.isEmpty then 0 else compileErrorCode
    output := [.text (String.join (tokens.map fun t => tokenText format t ++ "\n"))]
    complaint := complain format errors }

/-- Goes on with the script that a source is, or complains that it is none. -/
def withProgram (source : String) (format : Format) (f : Program → Result) : Result :=
  match Program.ofText source with
  | .ok program => f program
  | .error e =>
    { code := compileErrorCode
      complaint := complain format [explainSyntax (Lines.ofText source) e] }

/-- The end of a script that failed. -/
def failed (source : String) (format : Format) (w : World) (e : RuntimeError) : Result :=
  { code := runtimeErrorCode
    output := w.terminal.transcript
    complaint := complain format [explainRuntime (Lines.ofText source) e] }

/-- The end of a script that did not fail. -/
def succeeded (w : World) : Result :=
  { code := 0, output := w.terminal.transcript }

/-- The end of a script that broke off. -/
def brokenOff (w : World) : Result :=
  { code := abortCode
    output := w.terminal.transcript
    complaint := .text "the script broke off\n" }

/-- The lines of a text, each with its line end. -/
def splitLines (text : String) : List String :=
  go [] text.toList
where
  /-- Cuts behind every line end; `taken` is the present line, last character first. -/
  go (taken : List Char) : List Char → List String
    | [] => if taken.isEmpty then [] else [String.ofList taken.reverse]
    | c :: cs =>
      if c = '\n' then String.ofList (c :: taken).reverse :: go [] cs else go (c :: taken) cs

/-- The world of a script on an interactive terminal. -/
def worldOn (typed : String) : World :=
  .around (.onLines (splitLines typed))

/-- Runs a script. -/
def run (source : String) (format : Format) (typed : String) : Result :=
  withProgram source format fun program =>
    match program.run ampleFuel (worldOn typed) with
    | (.error e, w) => failed source format w e
    | (.aborted, w) => brokenOff w
    | (_, w) => succeeded w

/-- Runs a script from the console of the debugger, which shares the terminal with it. -/
def debug (source : String) (format : Format) (typed : String) : Result :=
  withProgram source format fun program =>
    let r := program.runConsole .shared ampleFuel (worldOn typed)
    match r.result with
    | .error (.failed e) => failed source format r.world e
    | .error (.console _) => brokenOff r.world
    | _ => succeeded r.world

/-- Carries out an action on a source text. -/
def perform (action : Action) (source : String) (format : Format) (typed : String) : Result :=
  match action with
  | .tokenize => tokenize source format
  | .parse => withProgram source format fun program =>
    { code := 0, output := [.text program.outline] }
  | .run => run source format typed
  | .debug => debug source format typed

/-- A result that only writes a text. -/
def say (text : String) : Result :=
  { code := 0, output := [.text text] }

/-- Carries out a request. `file?` gives the contents of the files that can be read. -/
def Request.serve (file? : String → Option String) (typed : String) : Request → Result
  | .version => say versionText
  | .help topic => say topic.text
  | .act action path format =>
    match file? path with
    | some source => perform action source format typed
    | none => { code := abortCode, complaint := .text ("cannot read " ++ path ++ "\n") }

/-- The program: from arguments, files and lines typed to a result. -/
def invoke (file? : String → Option String) (arguments : List String) (typed : String) : Result :=
  match Request.ofArguments? arguments with
  | some request => request.serve file? typed
  | none => { code := usageCode, complaint := .text generalHelp }

end Roteiro.Cli
