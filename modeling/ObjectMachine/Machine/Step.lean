import ObjectMachine.Machine.Basic

/-!
# Instructions

One cycle fetches the instruction at the position of the innermost frame, moves the position and
the count of cycles on, and lets the instruction take effect. An instruction takes its inputs
from the stack before it looks at anything else, and what it took stays taken if it fails.
-/

namespace ObjectMachine
namespace Machine

/-!
## Checks on objects
-/

def typeOf (addr : Addr) : Op TypeRef :=
  onMemory (Memory.query fun memory => memory.typeOf addr)

def checkInstance (opcode : Opcode) (addr : Addr) (owner : TypeRef) : Op Unit := do
  if addr.isNull then
    fail (.nullReference (.operation opcode))
  let actual ← typeOf addr
  let program ← observe Machine.program
  unless program.isSubclass actual owner do
    throw (.ofCode do
      return .wrongInstance opcode (← program.typeName? owner) (← program.typeName? actual))

def elementKind (opcode : Opcode) (addr : Addr) : Op Kind := do
  if addr.isNull then
    fail (.nullReference (.operation opcode))
  let actual ← typeOf addr
  let program ← observe Machine.program
  match program.array? actual with
  | some a => return a.elementKind
  | none => throw (.ofCode ((program.typeName? actual).map (.notAnArray opcode)))

/-!
## Calls
-/

def callBuiltin (builtin : Builtin) (args : List Value) : Op (Option ExitStatus) := do
  note .debug fun machine =>
    .builtinCalled machine.cycle machine.frames.length builtin.name args
  match builtin, args with
  | .halt, [.str ref] => return some (.halted (← string ref))
  | .writeChar, [.char c] => onConsole (Console.write (String.singleton c))
  | .writeInt, [.int i] => onConsole (Console.write (Text.showInt32 i))
  | .writeString, [.str ref] => do
      let text ← string ref
      onConsole (Console.write text)
  | .readChar, [] => do
      let c ← onConsole Console.readChar
      push (.char c)
  | .readInt, [] => do
      let i ← onConsole Console.readInt
      push (.int i)
  | .readString, [] => do
      let line ← onConsole Console.readLine
      let ref ← modifyGet fun machine =>
        let (ref, strings) := machine.strings.intern line
        (ref, { machine with strings })
      push (.str ref)
  | builtin, args => fail (.code (.wrongArguments builtin.name args))
  return none

/-- The receiver of a call, which an instance method takes from the stack beneath its
arguments. -/
def popReceiver (method : MethodRef) (descriptor : MethodDescriptor) (isVirtual : Bool) :
    Op Addr := do
  let program ← observe Machine.program
  match descriptor.owner with
  | some owner =>
      let receiver ← onFrame Frame.popRef
      if receiver.isNull then
        fail (.nullReference (.call (program.methodName method)))
      let actual ← typeOf receiver
      unless program.isSubclass actual owner do
        throw (.ofCode
          ((program.typeName? actual).map (.wrongReceiver (program.methodName method))))
      return receiver
  | none =>
      if isVirtual then
        fail (.code (.noReceiver (program.methodName method)))
      return .null

/-- The method that a virtual call reaches: the one of its name on the class of the receiver. -/
def virtualTarget (name : String) (receiver : Addr) (count : Nat) : Op MethodRef := do
  let program ← observe Machine.program
  let actual ← typeOf receiver
  let target ← orThrow (program.resolveVirtual? actual name)
    (.ofCode ((program.typeName? actual).map (.noOverride · name)))
  let descriptor ← orThrow (program.method? target) (.error (.code (.noMethod target)))
  if descriptor.params.length ≠ count then
    fail (.code (.wrongArity (program.methodName target) count))
  return target

def enterMethod (target : MethodRef) (receiver : Addr) (args : List Value) : Op Unit := do
  let limit ← observe fun machine => machine.limits.callDepth
  if limit ≤ (← observe fun machine => machine.frames.length) then
    fail (.shortage (.callDepth limit))
  note .debug fun machine =>
    .called machine.cycle machine.frames.length (machine.program.methodName target)
  modify fun machine => { machine with
    frames :=
      Frame.enter machine.program target receiver args machine.limits.stackCapacity ::
        machine.frames }

def call (method : MethodRef) (isVirtual : Bool) : Op (Option ExitStatus) := do
  let program ← observe Machine.program
  let descriptor ← orThrow (program.method? method) (.error (.code (.noMethod method)))
  let args ← onFrame (Frame.popAll (descriptor.params.map program.kindOf))
  let receiver ← popReceiver method descriptor isVirtual
  let target ← if isVirtual then virtualTarget descriptor.name receiver args.length
    else pure method
  let called ← orThrow (program.method? target) (.error (.code (.noMethod target)))
  match called.builtin with
  | some builtin => callBuiltin builtin args
  | none => do
      enterMethod target receiver args
      return none

def leaveMethod : Op Unit := fun machine =>
  match machine.frames with
  | [] => .error (.error (.code .returnWithoutFrame)) machine
  | _ :: rest => .ok () { machine with frames := rest }

def ret : Op Unit := do
  let program ← observe Machine.program
  let method ← onFrame fun frame => .ok frame.method frame
  let descriptor ← orThrow (program.method? method) (.error (.code (.noMethod method)))
  let value ← match descriptor.returns with
    | some type => do
        let value ← onFrame (Frame.popKind (program.kindOf type))
        pure (some value)
    | none => pure none
  leaveMethod
  note .debug fun machine =>
    .returned machine.cycle machine.frames.length (program.methodName method) value
  match value with
  | none => return ()
  | some value =>
      if (← observe fun machine => machine.frames.isEmpty) then
        return ()
      push value

/-!
## Effects on a frame
-/

def jump (offset : Int) : Frame.Op Unit := fun frame =>
  let target := frame.ip + offset
  if target < 0 then
    .error (.code (.branchBefore target)) frame
  else
    .ok () { frame with ip := target.toNat }

def jumpIf (wanted : Bool) (offset : Int) : Frame.Op Unit := do
  let condition ← Frame.popBool
  if condition = wanted then
    jump offset

def arithmetic (op : Int32 → Int32 → Except Error Int32) : Frame.Op Unit := do
  let right ← Frame.popInt
  let left ← Frame.popInt
  match op left right with
  | .ok value => Frame.push (.int value)
  | .error e => throw e

def nonzero (op : Int32 → Int32 → Int32) (left right : Int32) : Except Error Int32 :=
  if right = 0 then .error .divisionByZero else .ok (op left right)

def equality (wanted : Bool) : Frame.Op Unit := do
  let right ← Frame.pop
  let left ← Frame.pop
  Frame.require (right.check left.kind)
  Frame.push (.bool (decide (left = right) = wanted))

/-- The order of two values, if both are integers or both are characters. -/
def compareValues? : Value → Value → Option Ordering
  | .int left, .int right => some (compare left.toInt right.toInt)
  | .char left, .char right => some (compare left.toNat right.toNat)
  | _, _ => none

def comparison (test : Ordering → Bool) : Frame.Op Unit := do
  let right ← Frame.pop
  let left ← Frame.pop
  match compareValues? left right with
  | some ordering => Frame.push (.bool (test ordering))
  | none => throw (.code (.unordered left.kind right.kind))

def logic (op : Bool → Bool → Bool) : Frame.Op Unit := do
  let right ← Frame.popBool
  let left ← Frame.popBool
  Frame.push (.bool (op left right))

def toChar : Frame.Op Unit := do
  let i ← Frame.popInt
  match Word.toChar? i.toUInt32 with
  | some c => Frame.push (.char c)
  | none => throw (.invalidCast ("int " ++ Text.showInt32 i) "char")

def toInt : Frame.Op Unit := do
  let c ← Frame.popChar
  Frame.push (.int c.val.toInt32)

def loadLocal (index : Nat) : Frame.Op Unit := do
  let value ← Frame.slot (← get).locals index
  Frame.push value

def storeLocal (index : Nat) : Frame.Op Unit := do
  let value ← Frame.pop
  let locals ← Frame.store (← get).locals index value
  modify fun frame => { frame with locals }

def loadArg (index : Nat) : Frame.Op Unit := do
  let value ← Frame.slot (← get).args index
  Frame.push value

def storeArg (index : Nat) : Frame.Op Unit := do
  let value ← Frame.pop
  let args ← Frame.store (← get).args index value
  modify fun frame => { frame with args }

def loadThis : Frame.Op Unit := do
  let receiver := (← get).receiver
  if receiver.isNull then
    throw (.nullReference .noReceiver)
  Frame.push (.ref receiver)

/-!
## Effects on the heap
-/

def loadField (field : FieldRef) : Op Unit := do
  let addr ← onFrame Frame.popRef
  checkInstance .ldfld addr field.owner
  let value ← onMemory (Memory.query fun memory => memory.getField addr field.slot)
  push value

def storeField (field : FieldRef) : Op Unit := do
  let value ← onFrame (Frame.popKind field.slot.kind)
  let addr ← onFrame Frame.popRef
  checkInstance .stfld addr field.owner
  onMemory (Memory.putField addr field.slot value)

def makeObject (type : TypeRef) : Op Unit := do
  let addr ← allocateObject type
  push (.ref addr)

def makeArray (type : TypeRef) : Op Unit := do
  let length ← onFrame Frame.popInt
  if length.toInt < 0 then
    fail (.indexOutOfRange length 0)
  let addr ← allocateArray type length.toInt.toNat
  push (.ref addr)

def loadElement : Op Unit := do
  let index ← onFrame Frame.popInt
  let addr ← onFrame Frame.popRef
  let kind ← elementKind .ldelem addr
  let value ← onMemory (Memory.query fun memory => memory.getElement addr kind index)
  push value

def storeElement : Op Unit := do
  let value ← onFrame Frame.pop
  let index ← onFrame Frame.popInt
  let addr ← onFrame Frame.popRef
  let kind ← elementKind .stelem addr
  require (value.check kind)
  onMemory (Memory.putElement addr kind index value)

def loadLength : Op Unit := do
  let addr ← onFrame Frame.popRef
  let _ ← elementKind .ldlen addr
  let length ← onMemory (Memory.query fun memory => memory.arrayLength addr)
  push (.int (Int32.ofNat length))

/-- Whether an object is an instance of a class. Null is an instance of none. -/
def testInstance (type : TypeRef) : Op Unit := do
  let addr ← onFrame Frame.popRef
  if addr.isNull then
    push (.bool false)
  else
    let actual ← typeOf addr
    let program ← observe Machine.program
    push (.bool (program.isSubclass actual type))

/-- An object must be an instance of a class. Null passes as an instance of any. -/
def castInstance (type : TypeRef) : Op Unit := do
  let addr ← onFrame Frame.popRef
  unless addr.isNull do
    let actual ← typeOf addr
    let program ← observe Machine.program
    unless program.isSubclass actual type do
      throw (.ofCast do return (← program.typeName? actual, ← program.typeName? type))
  push (.ref addr)

/-!
## Cycles
-/

/-- An instruction takes effect. It ends the run only by a call that asks for it. -/
def execute (insn : Instruction) : Op (Option ExitStatus) := do
  match insn.opcode, insn.operand with
  | .nop, _ => pure ()
  | .ldcI4, .int value => push (.int value)
  | .ldcC, .char value => push (.char value)
  | .ldcB, .bool value => push (.bool value)
  | .ldstr, .str ref => push (.str ref)
  | .ldnull, _ => push (.ref .null)
  | .ldloc, .slot index => onFrame (loadLocal index)
  | .stloc, .slot index => onFrame (storeLocal index)
  | .ldarg, .slot index => onFrame (loadArg index)
  | .starg, .slot index => onFrame (storeArg index)
  | .ldthis, _ => onFrame loadThis
  | .ldfld, .field field => loadField field
  | .stfld, .field field => storeField field
  | .newobj, .type type => makeObject type
  | .newarr, .type type => makeArray type
  | .ldelem, _ => loadElement
  | .stelem, _ => storeElement
  | .ldlen, _ => loadLength
  | .call, .method method => return (← call method false)
  | .callvirt, .method method => return (← call method true)
  | .ret, _ => ret
  | .isinst, .type type => testInstance type
  | .castclass, .type type => castInstance type
  | .br, .branch offset => onFrame (jump offset)
  | .brtrue, .branch offset => onFrame (jumpIf true offset)
  | .brfalse, .branch offset => onFrame (jumpIf false offset)
  | .add, _ => onFrame (arithmetic fun a b => .ok (a + b))
  | .sub, _ => onFrame (arithmetic fun a b => .ok (a - b))
  | .mul, _ => onFrame (arithmetic fun a b => .ok (a * b))
  | .div, _ => onFrame (arithmetic (nonzero fun a b => a / b))
  | .rem, _ => onFrame (arithmetic (nonzero fun a b => a % b))
  | .neg, _ => onFrame do
      let value ← Frame.popInt
      Frame.push (.int (-value))
  | .ceq, _ => onFrame (equality true)
  | .cne, _ => onFrame (equality false)
  | .clt, _ => onFrame (comparison (·.isLT))
  | .cle, _ => onFrame (comparison (·.isLE))
  | .cgt, _ => onFrame (comparison (·.isGT))
  | .cge, _ => onFrame (comparison (·.isGE))
  | .and, _ => onFrame (logic and)
  | .or, _ => onFrame (logic or)
  | .not, _ => onFrame do
      let value ← Frame.popBool
      Frame.push (.bool !value)
  | .convC, _ => onFrame toChar
  | .convI, _ => onFrame toInt
  | .pop, _ => onFrame do
      let _ ← Frame.pop
  | .dup, _ => onFrame do
      let value ← Frame.top
      Frame.push value
  | opcode, operand => fail (.code (.wrongOperand opcode operand))
  return none

def fetch : Op Instruction := fun machine =>
  match machine.frames with
  | [] => .error (.error (.code .noFrame)) machine
  | frame :: rest =>
      match (machine.program.method? frame.method).bind fun method => method.code[frame.ip]? with
      | none =>
          .error (.error (.code (.pastEnd (machine.program.methodName frame.method)))) machine
      | some insn =>
          .ok insn { machine with
            frames := { frame with ip := frame.ip + 1 } :: rest
            cycle := machine.cycle + 1 }

def executingEvent (insn : Instruction) (machine : Machine) : Event :=
  let (method, ip) := match machine.frames with
    | [] => ("", 0)
    | frame :: _ => (machine.program.methodName frame.method, frame.ip - 1)
  .executing machine.cycle machine.frames.length method ip insn

def step : Op (Option ExitStatus) := do
  let insn ← fetch
  note .trace (executingEvent insn)
  execute insn

end Machine
end ObjectMachine
