import Roteiro.Cli.Run

/-!
The program. All that is typed is read first; then the request is carried out, and what it writes
is written in order, with the waits between.
-/

namespace Roteiro.Cli

/-- Reads a stream to its end, behind the text already taken. -/
partial def readAll (input : IO.FS.Stream) (taken : String) : IO String := do
  let line ← input.getLine
  if line.isEmpty then return taken else readAll input (taken ++ line)

/-- The contents of a file, if it can be read. -/
def readFile? (path : String) : IO (Option String) := do
  try
    return some (← IO.FS.readFile path)
  catch _ =>
    return none

/-- The files that a request needs, with their contents. -/
def filesOf : Option Request → IO (List (String × String))
  | some (.act _ path _) => return ((← readFile? path).map fun text => (path, text)).toList
  | _ => return []

/-- What is typed, if a request can make use of it. -/
def typedFor : Option Request → IO String
  | some (.act .run _ _) | some (.act .debug _ _) => do readAll (← IO.getStdin) ""
  | _ => return ""

/-- Writes an output, or waits. -/
def replay : Output → IO Unit
  | .text text => IO.print text
  | .pause seconds => do
    (← IO.getStdout).flush
    IO.sleep (seconds * 1000).toUInt32

/-- A complaint as text. -/
def Complaint.render : Complaint → String
  | .text written => written
  | .reports list => String.join (list.map fun r => r.title ++ "\n  " ++ r.label ++ "\n")

/-- Carries out what the arguments ask for, and returns the exit code. -/
def runArguments (arguments : List String) : IO UInt32 := do
  let request := Request.ofArguments? arguments
  let files ← filesOf request
  let typed ← typedFor request
  let result := invoke (fun path => files.lookup path) arguments typed
  for output in result.output do replay output
  IO.eprint result.complaint.render
  return result.code.toUInt32

end Roteiro.Cli

/-- The entry point. -/
def main (arguments : List String) : IO UInt32 :=
  Roteiro.Cli.runArguments arguments
