import ObjectMachine.Error
import ObjectMachine.Memory.Basic

/-!
# The log

What happens is recorded as events, each with a level. A log keeps the events up to a threshold,
from the most severe level down, and renders each as one line.
-/

namespace ObjectMachine

/-- How much an event matters, the most severe first. -/
inductive Level where
  | error
  | warn
  | info
  | debug
  | trace
  deriving DecidableEq, Repr, Inhabited

namespace Level

def rank : Level → Nat
  | .error => 1
  | .warn => 2
  | .info => 3
  | .debug => 4
  | .trace => 5

def name : Level → String
  | .error => "ERROR"
  | .warn => "WARN"
  | .info => "INFO"
  | .debug => "DEBUG"
  | .trace => "TRACE"

end Level

inductive Event where
  | classLaidOut (name : String) (fields size entries : Nat)
  | imageLinked (types methods literals : Nat)
  | booting (types methods heapSize callDepth stackCapacity : Nat)
  /-- The call stack was set up for a method. -/
  | started (cycle : Nat) (method : String)
  /-- An instruction is about to take effect. -/
  | executing (cycle depth : Nat) (method : String) (ip : Nat) (insn : Instruction)
  | called (cycle depth : Nat) (method : String)
  | returned (cycle depth : Nat) (method : String) (value : Option Value)
  | builtinCalled (cycle depth : Nat) (method : String) (args : List Value)
  | collected (number : Nat) (report : Report) (freeBytes extents : Nat)
  | failed (error : Error)
  /-- A frame of the run that ended with an error. -/
  | unwound (method : String) (ip : Nat) (receiver : Addr)
  deriving DecidableEq, Repr

namespace Event

def level : Event → Level
  | .classLaidOut .. => .debug
  | .imageLinked .. => .info
  | .booting .. => .info
  | .started .. => .debug
  | .executing .. => .trace
  | .called .. => .debug
  | .returned .. => .debug
  | .builtinCalled .. => .debug
  | .collected .. => .debug
  | .failed .. => .error
  | .unwound .. => .error

/-- The beginning of a line about a run: the cycle, and a space for each frame. -/
def lead (cycle depth : Nat) : String :=
  "[cycle=" ++ toString cycle ++ "] " ++ "".pushn ' ' depth ++ " "

def describeResult : Option Value → String
  | some value => "Some(" ++ value.describe ++ ")"
  | none => "None"

def message : Event → String
  | .classLaidOut name fields size entries =>
      "Class " ++ name ++ ": " ++ toString fields ++ " fields, " ++ toString size ++
        " payload bytes, " ++ toString entries ++ " vtable entries"
  | .imageLinked types methods literals =>
      "Loaded image: " ++ toString types ++ " types, " ++ toString methods ++ " methods, " ++
        toString literals ++ " string literals"
  | .booting types methods heapSize callDepth stackCapacity =>
      "booting: " ++ toString types ++ " types, " ++ toString methods ++ " methods, " ++
        toString heapSize ++ " byte heap, call depth " ++ toString callDepth ++
        ", stack capacity " ++ toString stackCapacity
  | .started cycle method => "[cycle=" ++ toString cycle ++ "] START " ++ method
  | .executing cycle depth method ip insn =>
      lead cycle depth ++ method ++ " @ " ++ toString ip ++ ": " ++ insn.opcode.traceName ++
        " " ++ insn.operand.describe
  | .called cycle depth method => lead cycle depth ++ "CALL " ++ method
  | .returned cycle depth method value =>
      lead cycle depth ++ "RETN " ++ method ++ " " ++ describeResult value
  | .builtinCalled cycle depth method args =>
      lead cycle depth ++ "PRIM " ++ method ++ " " ++ Value.describeList args
  | .collected number report freeBytes extents =>
      "GC #" ++ toString number ++ ": marked " ++ toString report.marked ++ ", freed " ++
        toString report.freedBlocks ++ " blocks (" ++ toString report.freedBytes ++
        " bytes), " ++ toString report.liveBytes ++ " bytes live, " ++ toString freeBytes ++
        " bytes free in " ++ toString extents ++ " extents"
  | .failed error => "fatal: " ++ error.message
  | .unwound method ip receiver =>
      "\t" ++ method ++ " @ " ++ toString ip ++
        (if receiver.isNull then "" else " (this = " ++ receiver.describe ++ ")")

def line (event : Event) : String :=
  event.level.name ++ " " ++ event.message

end Event

def Memory.collectionEvent (memory : Memory) : Event :=
  .collected memory.stats.collections memory.stats.last memory.freeBytes memory.freeList.length

structure Log where
  /-- The least severe level that is kept, or nothing is. -/
  threshold : Option Level
  events : Array Event
  deriving DecidableEq, Repr, Inhabited

namespace Log

def off : Log := ⟨none, #[]⟩

def upTo (threshold : Option Level) : Log := ⟨threshold, #[]⟩

def admits (log : Log) (level : Level) : Bool :=
  match log.threshold with
  | some threshold => level.rank ≤ threshold.rank
  | none => false

def note (log : Log) (event : Event) : Log :=
  if log.admits event.level then { log with events := log.events.push event } else log

def noteAll (log : Log) (events : List Event) : Log :=
  events.foldl note log

def lines (log : Log) : List String :=
  log.events.toList.map Event.line

end Log
end ObjectMachine
