import ObjectMachine.Error
import ObjectMachine.Program.Basic

/-!
# Frames

A frame is one activation of a method: its receiver, arguments and local variables, the position
of the next instruction, and a stack of values of limited size. Values are taken from the stack
by kind; one of the wrong kind is taken all the same before the error is reported.
-/

namespace ObjectMachine

structure Frame where
  method : MethodRef
  /-- The object it was called on, or null. -/
  receiver : Addr
  args : List Value
  locals : List Value
  /-- The position of the next instruction. -/
  ip : Nat
  /-- The stack, its top first. -/
  stack : List Value
  /-- The number of values the stack has room for. -/
  capacity : Nat
  deriving DecidableEq, Repr, Inhabited

def Value.check (value : Value) (kind : Kind) : Except Error Unit :=
  if value.kind = kind then .ok () else .error (.code (.wrongKind kind value.kind))

namespace Frame

abbrev Op := EStateM Error Frame

def enter (program : Program) (method : MethodRef) (receiver : Addr) (args : List Value)
    (capacity : Nat) : Frame where
  method := method
  receiver := receiver
  args := args
  locals :=
    match program.method? method with
    | some descriptor => descriptor.locals.map fun type => (program.kindOf type).default
    | none => []
  ip := 0
  stack := []
  capacity := capacity

def push (value : Value) : Op Unit := fun frame =>
  if frame.stack.length < frame.capacity then
    .ok () { frame with stack := value :: frame.stack }
  else
    .error (.shortage (.stackFull frame.capacity)) frame

def pop : Op Value := fun frame =>
  match frame.stack with
  | [] => .error (.code .emptyStack) frame
  | value :: rest => .ok value { frame with stack := rest }

def top : Op Value := fun frame =>
  match frame.stack with
  | [] => .error (.code .emptyStack) frame
  | value :: _ => .ok value frame

def require (outcome : Except Error Unit) : Op Unit :=
  match outcome with
  | .ok _ => pure ()
  | .error e => throw e

/-- The top of the stack is taken, and must be of a kind. -/
def popKind (kind : Kind) : Op Value := do
  let value ← pop
  require (value.check kind)
  return value

def popInt : Op Int32 := do
  match ← pop with
  | .int i => return i
  | value => throw (.code (.wrongKind .int value.kind))

def popBool : Op Bool := do
  match ← pop with
  | .bool b => return b
  | value => throw (.code (.wrongKind .bool value.kind))

def popChar : Op Char := do
  match ← pop with
  | .char c => return c
  | value => throw (.code (.wrongKind .char value.kind))

def popRef : Op Addr := do
  match ← pop with
  | .ref addr => return addr
  | value => throw (.code (.wrongKind .ref value.kind))

/-- Values of the given kinds are taken from the stack, the last of them first. -/
def popAll : List Kind → Op (List Value)
  | [] => return []
  | kind :: rest => do
      let later ← popAll rest
      let value ← popKind kind
      return value :: later

def slot (slots : List Value) (index : Nat) : Op Value :=
  match slots[index]? with
  | some value => return value
  | none => throw (.code (.noSlot index))

/-- Slots with a value stored in one of them, whose kind it must have. -/
def store (slots : List Value) (index : Nat) (value : Value) : Op (List Value) :=
  match slots[index]? with
  | none => throw (.code (.noSlot index))
  | some old => do
      require (value.check old.kind)
      return slots.set index value

def roots (frame : Frame) : List Addr :=
  (if frame.receiver.isNull then [] else [frame.receiver]) ++
    (frame.args ++ frame.locals ++ frame.stack.reverse).filterMap Value.root?

end Frame
end ObjectMachine
