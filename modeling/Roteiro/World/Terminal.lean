/-!
Terminals: where a script writes and reads lines. A captured terminal keeps what is written and
serves prepared lines, without showing prompts; an interactive one shows prompts, can be cleared by
a control sequence, and reads lines that still have their line ends.
-/

namespace Roteiro

/-- What a script does to a terminal. -/
inductive Output where
  | text (text : String)
  /-- A wait of so many seconds. -/
  | pause (seconds : Float)

/-- A terminal. -/
structure Terminal where
  interactive : Bool
  /-- Newest first. -/
  outputs : List Output := []
  /-- The lines that have not been read. -/
  input : List String := []

namespace Terminal

/-- A captured terminal with prepared input lines. -/
def captured (input : List String) : Terminal :=
  { interactive := false, input }

/-- An interactive terminal with the lines that will be typed, each with its line end. -/
def onLines (input : List String) : Terminal :=
  { interactive := true, input }

/-- Writes a text. -/
def put (t : Terminal) (text : String) : Terminal :=
  { t with outputs := .text text :: t.outputs }

/-- Writes a line. -/
def putLine (t : Terminal) (line : String) : Terminal :=
  t.put (line ++ "\n")

/-- The control sequence that clears a screen. -/
def clearSequence : String := "\x1bc"

/-- Clears what was written. -/
def clear (t : Terminal) : Terminal :=
  if t.interactive then t.put clearSequence else { t with outputs := [] }

/-- Waits. A captured terminal does not. -/
def wait (t : Terminal) (seconds : Float) : Terminal :=
  if t.interactive then { t with outputs := .pause seconds :: t.outputs } else t

/-- Takes the next raw line. -/
def takeLine (t : Terminal) : Option String × Terminal :=
  match t.input with
  | line :: rest => (some line, { t with input := rest })
  | [] => (none, t)

/-- A line without the line ends behind it. -/
def stripLineEnd (line : String) : String :=
  String.ofList (line.toList.reverse.dropWhile fun c => c = '\n' ∨ c = '\r').reverse

/-- Shows a prompt and reads a line. -/
def readLine (t : Terminal) (prompt : String) : Option String × Terminal :=
  if t.interactive then
    let t := if prompt.isEmpty then t else t.put prompt
    let (line, t) := t.takeLine
    (line.map stripLineEnd, t)
  else t.takeLine

/-- The outputs, oldest first. -/
def transcript (t : Terminal) : List Output :=
  t.outputs.reverse

/-- Everything written, as one text. -/
def written (t : Terminal) : String :=
  String.join (t.transcript.map fun
    | .text text => text
    | .pause _ => "")

end Terminal

end Roteiro
