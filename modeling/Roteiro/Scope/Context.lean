import Roteiro.Value.Basic

/-!
Contexts: the names of one activation of a script or function. A context holds its locals, newest
first, each with the scope level at which it was defined; entering a scope raises the level, and
leaving it drops the locals of that level. Levels are words of 32 bits: past the last one they start
over, and runs break off before that. A context also holds the frames of its running loops, with the
signals to break or continue them, and of its running calls, with the values they have returned.
-/

namespace Roteiro

/-- A named value and the scope level at which it was defined. -/
structure Local where
  name : String
  level : Nat
  value : Value

/-- The signals given to a running loop. -/
structure LoopFrame where
  broken : Bool := false
  continued : Bool := false
  deriving Repr, DecidableEq

/-- A context. -/
structure Context where
  /-- Newest first. -/
  locals : List Local := []
  level : Nat
  /-- Innermost first. -/
  loops : List LoopFrame := []
  /-- The values returned so far by each running call, innermost first. -/
  calls : List (List Value) := []
  /-- The context in which names are looked up that this one does not have. -/
  parent : Option ContextId := none

namespace Context

/-- The level of the names that stand in a context before any script runs. -/
def builtinLevel : Nat := 0

/-- The level of a new context. Its locals are never dropped. -/
def baseLevel : Nat := 1

/-- The last level. -/
def lastLevel : Nat := UInt32.size - 1

/-- A context without names. -/
def root : Context := { level := baseLevel }

/-- A context without names inside another. -/
def inside (parent : ContextId) : Context :=
  { level := baseLevel, parent := some parent }

instance : Inhabited Context :=
  ⟨root⟩

/-! ### locals -/

/-- Whether a name is defined at the current level. -/
def definedHere (c : Context) (name : String) : Bool :=
  c.locals.any fun l => l.level == c.level && l.name == name

/-- Defines a name at the current level, where it must be new. -/
def define (c : Context) (name : String) (value : Value) : Except RuntimeFault Context :=
  if c.definedHere name then .error (.alreadyDefined name)
  else .ok { c with locals := ⟨name, c.level, value⟩ :: c.locals }

/-- The slot of the newest local of a name: the number of locals older than it. -/
def slotIn (name : String) : List Local → Option Nat
  | [] => none
  | l :: older => if l.name = name then some older.length else slotIn name older

/-- The slot of the newest local of a name. -/
def slot? (c : Context) (name : String) : Option Nat :=
  slotIn name c.locals

/-- The local in a slot. -/
def local? (c : Context) (slot : Nat) : Option Local :=
  if slot < c.locals.length then c.locals[c.locals.length - 1 - slot]? else none

/-- The value in a slot, null if the slot is vacant. -/
def valueAt (c : Context) (slot : Nat) : Value :=
  match c.local? slot with
  | some l => l.value
  | none => .null

/-- Overwrites the value in a slot; a vacant slot stays vacant. -/
def write (c : Context) (slot : Nat) (value : Value) : Context :=
  if slot < c.locals.length then
    { c with locals := c.locals.modify (c.locals.length - 1 - slot) fun l => { l with value } }
  else c

/-- The locals of the current level, oldest first. -/
def currentLocals (c : Context) : List (String × Value) :=
  ((c.locals.filter fun l => l.level == c.level).map fun l => (l.name, l.value)).reverse

/-! ### scopes -/

/-- Whether no level is left for another scope. -/
def full (c : Context) : Bool :=
  lastLevel ≤ c.level

/-- Enters a scope. The arithmetic is that of words: after the last level comes level zero. -/
def enter (c : Context) : Context :=
  { c with level := (c.level + 1) % UInt32.size }

/-- Leaves a scope, dropping the newest locals as far as they belong to it. The locals of the base
level stay. -/
def leave (c : Context) : Context :=
  { c with
    locals :=
      if baseLevel < c.level then c.locals.dropWhile fun l => l.level == c.level else c.locals
    level := c.level - 1 }

/-! ### loops -/

/-- Starts a round of a loop. -/
def pushLoop (c : Context) : Context :=
  { c with loops := {} :: c.loops }

/-- Ends a round of the innermost loop and tells what was signalled in it. -/
def popLoop (c : Context) : Except RuntimeFault (LoopFrame × Context) :=
  match c.loops with
  | frame :: rest => .ok (frame, { c with loops := rest })
  | [] => .error .noLoop

/-- The signals given to the innermost loop. -/
def peekLoop (c : Context) : Except RuntimeFault LoopFrame :=
  match c.loops with
  | frame :: _ => .ok frame
  | [] => .error .noLoop

/-- Whether a loop is running. -/
def hasLoop (c : Context) : Bool :=
  !c.loops.isEmpty

/-- Changes the signals of the innermost loop. -/
def signal (c : Context) (f : LoopFrame → LoopFrame) : Except RuntimeFault Context :=
  match c.loops with
  | frame :: rest => .ok { c with loops := f frame :: rest }
  | [] => .error .noLoop

/-- Signals the innermost loop to end. -/
def markBreak (c : Context) : Except RuntimeFault Context :=
  c.signal fun frame => { frame with broken := true }

/-- Signals the innermost loop to go on with its next round. -/
def markContinue (c : Context) : Except RuntimeFault Context :=
  c.signal fun frame => { frame with continued := true }

/-! ### calls -/

/-- Starts a call. -/
def pushCall (c : Context) : Context :=
  { c with calls := [] :: c.calls }

/-- Ends the innermost call and tells what it returned. -/
def popCall (c : Context) : Except RuntimeFault (List Value × Context) :=
  match c.calls with
  | returned :: rest => .ok (returned, { c with calls := rest })
  | [] => .error .noFunction

/-- Adds values to what the innermost call returns. -/
def pushReturns (c : Context) (values : List Value) : Except RuntimeFault Context :=
  match c.calls with
  | returned :: rest => .ok { c with calls := (returned ++ values) :: rest }
  | [] => .error .noFunction

/-- Whether the innermost call has returned a value. -/
def hasReturned (c : Context) : Bool :=
  match c.calls with
  | returned :: _ => !returned.isEmpty
  | [] => false

/-- Whether a signal stops the statements of the current body. -/
def interrupted (c : Context) : Bool :=
  c.hasReturned ||
    match c.loops with
    | frame :: _ => frame.broken || frame.continued
    | [] => false

end Context

end Roteiro
