/-!
The arguments of the command line: an action, the path of a script, and an optional format for the
output and the errors.
-/

namespace Roteiro.Cli

/-- What can be done with a script. -/
inductive Action where
  | tokenize
  | parse
  | run
  | debug
  deriving Repr, DecidableEq

/-- How tokens and errors are written. -/
inductive Format where
  | debug
  | basic
  | pretty
  deriving Repr, DecidableEq

/-- What help can be asked for. -/
inductive Topic where
  /-- The whole program. -/
  | program
  | action (action : Action)
  /-- Help itself. -/
  | help
  deriving Repr, DecidableEq

/-- What the arguments ask for. -/
inductive Request where
  | version
  | help (topic : Topic)
  | act (action : Action) (path : String) (format : Format)
  deriving Repr, DecidableEq

/-- The word for an action. -/
def Action.name : Action → String
  | tokenize => "tokenize"
  | parse => "parse"
  | run => "run"
  | debug => "debug"

/-- The action of a word. -/
def Action.ofName? : String → Option Action
  | "tokenize" => some tokenize
  | "parse" => some parse
  | "run" => some run
  | "debug" => some debug
  | _ => none

/-- What an action does, in a line. -/
def Action.summary : Action → String
  | tokenize => "Print the token stream of a file"
  | parse => "Print the statement outline of a file"
  | run => ""
  | debug => "Run a file one node at a time"

/-- The format that an action uses if none is asked for. -/
def Action.defaultFormat : Action → Format
  | tokenize | parse => .basic
  | run | debug => .pretty

/-- The word for a format. -/
def Format.name : Format → String
  | debug => "debug"
  | basic => "basic"
  | pretty => "pretty"

/-- The format of a word. -/
def Format.ofName? : String → Option Format
  | "debug" => some debug
  | "basic" => some basic
  | "pretty" => some pretty
  | _ => none

/-- The text behind an opening, if the text starts with it. -/
def after? : List Char → List Char → Option (List Char)
  | [], text => some text
  | c :: cs, d :: ds => if c = d then after? cs ds else none
  | _ :: _, [] => none

/-- What a single argument is. -/
inductive Argument where
  /-- All arguments after this one are words. -/
  | wordsOnly
  | help
  | version
  /-- The format option; the format may be written in the same argument. -/
  | format (name : Option String)
  /-- Written like an option, but none. -/
  | unknown
  | word (text : String)
  deriving Repr, DecidableEq

/-- What is written behind the two dashes of a long option. -/
def Argument.ofLong (name : List Char) : Argument :=
  match String.ofList name with
  | "" => wordsOnly
  | "help" => help
  | "version" => version
  | "format" => format none
  | _ =>
    match after? "format=".toList name with
    | some value => format (some (String.ofList value))
    | none => unknown

/-- Reads an argument. Options of one letter may be written together, as many as one likes; since
each of them ends the reading, only the first counts. -/
def Argument.ofText (text : String) : Argument :=
  match text.toList with
  | '-' :: '-' :: name => ofLong name
  | '-' :: 'h' :: _ => help
  | '-' :: 'V' :: _ => version
  | '-' :: _ :: _ => unknown
  | _ => word text

/-- What was read of the arguments of an action. -/
structure Partial where
  path : Option String := none
  format : Option Format := none

/-- Takes note of a path, of which there may be one. -/
def Partial.withPath (p : Partial) (path : String) : Option Partial :=
  if p.path.isSome || path.isEmpty then none else some { p with path := some path }

/-- Takes note of a format, of which there may be one. -/
def Partial.withFormat (p : Partial) (name : String) : Option Partial :=
  if p.format.isSome then none
  else (Format.ofName? name).map fun format => { p with format := some format }

/-- The request of an action, once all arguments are read. -/
def Partial.finish (action : Action) (p : Partial) : Option Request :=
  p.path.map fun path => .act action path (p.format.getD action.defaultFormat)

/-- Reads arguments that are all paths. -/
def readPaths (action : Action) (p : Partial) : List String → Option Request
  | [] => p.finish action
  | path :: rest =>
    match p.withPath path with
    | some p => readPaths action p rest
    | none => none

/-- Reads the arguments of an action. -/
def readArguments (action : Action) (p : Partial) : List String → Option Request
  | [] => p.finish action
  | argument :: rest =>
    match Argument.ofText argument with
    | .wordsOnly => readPaths action p rest
    | .help => some (.help (.action action))
    | .format (some name) => (p.withFormat name).bind fun p => readArguments action p rest
    | .format none =>
      match rest with
      | name :: rest => (p.withFormat name).bind fun p => readArguments action p rest
      | [] => none
    | .word path => (p.withPath path).bind fun p => readArguments action p rest
    | .version | .unknown => none

/-- The topic that some words name. -/
def Topic.ofNames? : List String → Option Topic
  | [] => some program
  | ["help"] => some help
  | [name] => (Action.ofName? name).map action
  | _ => none

/-- What the arguments ask for; nothing if they are not understood. -/
def Request.ofArguments? : List String → Option Request
  | [] => none
  | "help" :: names => (Topic.ofNames? names).map .help
  | argument :: rest =>
    match Argument.ofText argument with
    | .version => some .version
    | .help => some (.help .program)
    | .word name => (Action.ofName? name).bind fun action => readArguments action {} rest
    | _ => none

/-! ### help -/

/-- A text filled up with blanks to a width. -/
def padRight (width : Nat) (s : String) : String :=
  s ++ String.ofList (List.replicate (width - s.length) ' ')

/-- A word and what it means, as a line of a table. -/
def helpLine (width : Nat) (word meaning : String) : String :=
  "  " ++ padRight width word ++ meaning ++ "\n"

/-- What the help does, in a line. -/
def helpSummary : String := "Print this message or the help of the given subcommand(s)"

/-- The help on the whole. -/
def generalHelp : String :=
  "Usage: pardal <COMMAND>\n\nCommands:\n"
    ++ String.join ([Action.tokenize, .parse, .run, .debug].map fun a =>
      helpLine 10 a.name a.summary)
    ++ helpLine 10 "help" helpSummary
    ++ "\nOptions:\n"
    ++ helpLine 15 "-h, --help" "Print help"
    ++ helpLine 15 "-V, --version" "Print version"

/-- The help on an action. -/
def Action.help (a : Action) : String :=
  let summary := if a.summary.isEmpty then "" else a.summary ++ "\n\n"
  summary
    ++ "Usage: pardal " ++ a.name ++ " [OPTIONS] <PATH>\n\nArguments:\n"
    ++ helpLine 8 "<PATH>" ""
    ++ "\nOptions:\n"
    ++ helpLine 23 "    --format <FORMAT>"
      ("[default: " ++ a.defaultFormat.name ++ "] [possible values: debug, basic, pretty]")
    ++ helpLine 23 "-h, --help" "Print help"

/-- The help on a topic. -/
def Topic.text : Topic → String
  | program => generalHelp
  | action a => a.help
  | help =>
    helpSummary ++ "\n\nUsage: pardal help [COMMAND]...\n\nArguments:\n"
      ++ helpLine 14 "[COMMAND]..." "Print help for the subcommand(s)"

/-- The name and the version of the program. -/
def versionText : String := "pardal 1.0.0\n"

end Roteiro.Cli
