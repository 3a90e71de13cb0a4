import ObjectMachine.Console
import ObjectMachine.Log
import ObjectMachine.Machine.Frame
import ObjectMachine.Machine.Limits
import ObjectMachine.Memory.Collect

/-!
# Machines

A machine runs a program on a memory, a string table and a console. Its operations end with a
result or an error, and leave a machine either way, so a session may go on after an error. There is
one exception, a failure in the search for a name that has no end, after which nothing goes on.

An operation on a part of the machine is lifted to the machine. The parts are taken apart before
the operation and put together after it, so that the memory has one owner while it is written.
-/

namespace ObjectMachine

/-- How a run ends when it does not fail. -/
inductive ExitStatus where
  | completed
  /-- The program asked to stop, with a message. -/
  | halted (message : String)
  deriving DecidableEq, Repr

structure Machine where
  program : Program
  limits : Limits
  memory : Memory
  /-- The literals of the program and the strings that were read. -/
  strings : StringTable
  /-- The frames, the innermost first. -/
  frames : List Frame
  console : Console
  /-- The number of instructions that were executed. -/
  cycle : Nat
  log : Log
  deriving Inhabited

namespace Machine

abbrev Op := EStateM Failure Machine

def boot (program : Program) (limits : Limits) (input : List UInt8) (log : Log) :
    Except Error Machine := do
  let memory ← Memory.new limits.heapSize
  .ok {
    program
    limits
    memory
    strings := program.strings
    frames := []
    console := .ofInput input
    cycle := 0
    log := log.note (.booting program.types.size program.methods.size limits.heapSize
      limits.callDepth limits.stackCapacity) }

/-!
## Parts of a machine
-/

def observe {α : Type} (look : Machine → α) : Op α := fun machine =>
  .ok (look machine) machine

def fail {α : Type} (e : Error) : Op α :=
  throw (.error e)

def require {α : Type} (outcome : Except Error α) : Op α :=
  match outcome with
  | .ok a => pure a
  | .error e => fail e

def orThrow {α : Type} (found : Option α) (failure : Failure) : Op α :=
  match found with
  | some a => pure a
  | none => throw failure

def onMemory {α : Type} (op : Memory.Op α) : Op α
  | { program, limits, memory, strings, frames, console, cycle, log } =>
      match op memory with
      | .ok a memory =>
          .ok a { program, limits, memory, strings, frames, console, cycle, log }
      | .error e memory =>
          .error (.error e) { program, limits, memory, strings, frames, console, cycle, log }

def onConsole {α : Type} (op : Console.Op α) : Op α
  | { program, limits, memory, strings, frames, console, cycle, log } =>
      match op console with
      | .ok a console =>
          .ok a { program, limits, memory, strings, frames, console, cycle, log }
      | .error e console =>
          .error (.error e) { program, limits, memory, strings, frames, console, cycle, log }

def onFrame {α : Type} (op : Frame.Op α) : Op α := fun machine =>
  match machine.frames with
  | [] => .error (.error (.code .noFrame)) machine
  | frame :: rest =>
      match op frame with
      | .ok a frame => .ok a { machine with frames := frame :: rest }
      | .error e frame => .error (.error e) { machine with frames := frame :: rest }

def push (value : Value) : Op Unit :=
  onFrame (Frame.push value)

def note (level : Level) (event : Machine → Event) : Op Unit :=
  modify fun machine =>
    if machine.log.admits level then
      { machine with log := machine.log.note (event machine) }
    else
      machine

def string (ref : StrRef) : Op String := do
  orThrow (← observe fun machine => machine.strings.get? ref) (.error (.code (.unknownString ref)))

/-!
## Allocation
-/

/-- The heap addresses that the frames keep alive, the outermost frame first. -/
def roots (machine : Machine) : List Addr :=
  machine.frames.reverse.flatMap Frame.roots

def collectGarbage : Op Report := do
  let roots ← observe roots
  let program ← observe Machine.program
  let report ← onMemory (Memory.collect program roots)
  note .debug fun machine => machine.memory.collectionEvent
  return report

/-- A block is allocated, after a collection if there is no room at first. -/
def allocate (attempt : Memory.Op (Option Addr)) (shortage : Machine → Option Shortage) :
    Op Addr := do
  match ← onMemory attempt with
  | some addr => return addr
  | none =>
      let _ ← collectGarbage
      match ← onMemory attempt with
      | some addr => return addr
      | none => throw (.ofShortage (← observe shortage))

def allocateObject (type : TypeRef) : Op Addr := do
  let c ← orThrow (← observe fun machine => machine.program.class? type)
    (.error (.code (.notAClass type)))
  allocate (Memory.newObject type c) fun machine =>
    (machine.program.typeName? type).map fun name =>
      .noRoomForObject name machine.memory.freeBytes

def allocateArray (type : TypeRef) (length : Nat) : Op Addr := do
  let a ← orThrow (← observe fun machine => machine.program.array? type)
    (.error (.code (.notAnArrayType type)))
  allocate (Memory.newArray type a length) fun machine =>
    (machine.program.typeName? a.element).map fun element =>
      .noRoomForArray element length machine.memory.freeBytes

end Machine
end ObjectMachine
