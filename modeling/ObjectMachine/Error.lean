import ObjectMachine.Image.Fault
import ObjectMachine.Program.Instruction

/-!
# Errors

Everything that can go wrong, as causes. The causes fall into nine classes: a bad image, bad
byte code, a resource that ran out, an index out of range, a damaged heap, a use of the null
reference, a failed cast, a division by zero, and trouble with input or output. `Error.message`
gives the wording.
-/

namespace ObjectMachine

/-!
## Byte code
-/

inductive CodeError where
  | noFrame
  | returnWithoutFrame
  | pastEnd (method : String)
  | wrongOperand (opcode : Opcode) (operand : Operand)
  | noSlot (index : Nat)
  | branchBefore (target : Int)
  | unordered (left right : Kind)
  | wrongKind (expected found : Kind)
  | emptyStack
  | wrongInstance (opcode : Opcode) (owner actual : String)
  | notAnArray (opcode : Opcode) (actual : String)
  | wrongReceiver (method actual : String)
  | noReceiver (method : String)
  | noOverride (className method : String)
  | wrongArity (method : String) (count : Nat)
  | notAnEntry (method : String)
  | noMethod (ref : MethodRef)
  | unknownString (ref : StrRef)
  | notAClass (ref : TypeRef)
  | notAnArrayType (ref : TypeRef)
  | wrongArguments (builtin : String) (args : List Value)
  deriving DecidableEq, Repr

def CodeError.message : CodeError → String
  | .noFrame => "no active frame"
  | .returnWithoutFrame => "return without a frame"
  | .pastEnd method => method ++ " ran off the end of its code"
  | .wrongOperand opcode operand =>
      opcode.mnemonic ++ " cannot take operand " ++ operand.describe
  | .noSlot index => "no slot " ++ toString index
  | .branchBefore target => "branch to " ++ toString target
  | .unordered left right => "cannot order " ++ left.name ++ " and " ++ right.name
  | .wrongKind expected found => "expected " ++ expected.name ++ ", found " ++ found.name
  | .emptyStack => "evaluation stack underflow"
  | .wrongInstance opcode owner actual =>
      opcode.mnemonic ++ " of " ++ owner ++ " on an instance of " ++ actual
  | .notAnArray opcode actual => opcode.mnemonic ++ " on an instance of " ++ actual
  | .wrongReceiver method actual => method ++ " called on an instance of " ++ actual
  | .noReceiver method => "callvirt to " ++ method ++ ", which has no receiver"
  | .noOverride className method => className ++ " has no slot for " ++ method
  | .wrongArity method count => method ++ " does not take " ++ toString count ++ " arguments"
  | .notAnEntry method => method ++ " cannot be an entry point"
  | .noMethod ref => "no method " ++ ref.describe
  | .unknownString ref => "unknown string " ++ ref.describe
  | .notAClass ref => ref.describe ++ " is not a class"
  | .notAnArrayType ref => ref.describe ++ " is not an array type"
  | .wrongArguments builtin args => builtin ++ " called with " ++ Value.describeList args

/-!
## Resources
-/

inductive Shortage where
  | heapSize (size : Nat)
  | stackFull (capacity : Nat)
  | callDepth (limit : Nat)
  | noRoomForObject (type : String) (free : Nat)
  | noRoomForArray (element : String) (length free : Nat)
  deriving DecidableEq, Repr

def Shortage.message : Shortage → String
  | .heapSize size => "unusable heap size " ++ toString size
  | .stackFull capacity => "evaluation stack full (" ++ toString capacity ++ " entries)"
  | .callDepth limit => "call depth exceeds " ++ toString limit
  | .noRoomForObject type free =>
      "heap exhausted allocating " ++ type ++ " (" ++ toString free ++ " bytes free)"
  | .noRoomForArray element length free =>
      "heap exhausted allocating " ++ element ++ "[" ++ toString length ++ "] (" ++
        toString free ++ " bytes free)"

/-!
## The heap
-/

inductive Corruption where
  | outsideHeap (addr : Addr)
  | notLive (addr : Addr) (size : Nat) (free : Bool)
  | zeroSize (addr : Addr)
  | overrunsHeap (addr : Addr) (size : Nat)
  | overrunsBlock (offset : Nat) (addr : Addr) (size : Nat)
  | badChar (code : UInt32) (addr : Addr)
  | badTag (addr : Addr) (type : TypeRef)
  /-- An access to bytes that the arena does not have. -/
  | outsideArena (pos width : Nat)
  deriving DecidableEq, Repr

def Corruption.message : Corruption → String
  | .outsideHeap addr => addr.describe ++ " lies outside the heap"
  | .notLive addr size free =>
      addr.describe ++ " is not a live block (size " ++ toString size ++ ", free " ++
        (if free then "true" else "false") ++ ")"
  | .zeroSize addr => "zero-size block at " ++ addr.describe
  | .overrunsHeap addr size =>
      "block at " ++ addr.describe ++ " of size " ++ toString size ++ " overruns the heap"
  | .overrunsBlock offset addr size =>
      "access at +" ++ toString offset ++ " overruns block " ++ addr.describe ++ " of size " ++
        toString size
  | .badChar code addr =>
      "char 0x" ++ Text.showHex code.toNat ++ " stored at " ++ addr.describe
  | .badTag addr type => "block " ++ addr.describe ++ " carries type tag " ++ type.describe
  | .outsideArena pos width =>
      toString width ++ " bytes at " ++ toString pos ++ " lie outside the arena"

inductive NullUse where
  | noReceiver
  | operation (opcode : Opcode)
  | call (method : String)
  deriving DecidableEq, Repr

def NullUse.message : NullUse → String
  | .noReceiver => "ldthis without a receiver"
  | .operation opcode => opcode.mnemonic ++ " on null"
  | .call method => "call to " ++ method ++ " on null"

/-!
## Input and output
-/

inductive IoKind where
  | unexpectedEnd
  | invalidData
  | notFound
  | permissionDenied
  | isDirectory
  | other
  deriving DecidableEq, Repr

inductive IoFault where
  /-- Input that was to be text is not UTF-8. -/
  | notUtf8
  /-- No integer stands next in the input, which may have ended. -/
  | noInteger (atEnd : Bool)
  /-- The number that stands next does not fit in 32 bits, or is a bare sign. -/
  | notInt32 (digits : String)
  /-- A failure reported by the system, by its number. -/
  | system (number : Nat) (kind : IoKind) (text : String)
  /-- A failure reported by other means, in its own words. -/
  | foreign (kind : IoKind) (text : String)
  deriving DecidableEq, Repr

namespace IoFault

def unfilled : IoFault :=
  .foreign .unexpectedEnd "failed to fill whole buffer"

def kind : IoFault → IoKind
  | .notUtf8 => .invalidData
  | .noInteger atEnd => if atEnd then .unexpectedEnd else .invalidData
  | .notInt32 _ => .invalidData
  | .system _ kind _ => kind
  | .foreign kind _ => kind

def message : IoFault → String
  | .notUtf8 => "stream did not contain valid UTF-8"
  | .noInteger _ => "expected an integer"
  | .notInt32 digits => Text.quote digits ++ " is not a 32-bit integer"
  | .system number _ text => text ++ " (os error " ++ toString number ++ ")"
  | .foreign _ text => text

end IoFault

/-!
## Errors
-/

inductive Error where
  | image (fault : ImageFault)
  | code (cause : CodeError)
  | shortage (cause : Shortage)
  | indexOutOfRange (index : Int32) (length : Nat)
  | corruption (cause : Corruption)
  | nullReference (use : NullUse)
  | invalidCast (source target : String)
  | divisionByZero
  | io (fault : IoFault)
  deriving DecidableEq, Repr

namespace Error

def message : Error → String
  | .image fault => imageFaultLead ++ fault.message
  | .code cause => "invalid bytecode: " ++ cause.message
  | .shortage cause => "resource exhausted: " ++ cause.message
  | .indexOutOfRange index length =>
      "index " ++ Text.showInt32 index ++ " out of range for array of length " ++ toString length
  | .corruption cause => "heap corruption: " ++ cause.message
  | .nullReference use => "null reference: " ++ use.message
  | .invalidCast source target => "invalid cast from " ++ source ++ " to " ++ target
  | .divisionByZero => "division by zero"
  | .io fault => "i/o error: " ++ fault.message

/-- A failure while an image is being decoded. Input that ends early or makes no sense is a fault
of the image; all else is trouble with the input. -/
def ofDecode (fault : IoFault) : Error :=
  match fault.kind with
  | .unexpectedEnd | .invalidData => .image (.undecodable fault.message)
  | _ => .io fault

end Error

/-!
## Failures
-/

inductive NamingError where
  | code
  | shortage
  | invalidCast
  deriving DecidableEq, Repr

/-- Why an operation on a machine gives no result. -/
inductive Failure where
  | error (e : Error)
  /-- The name of a type that was to go into an error is without end. Looking for it exhausts the
  stack of the host: the error is never made, and no machine is left. -/
  | endless (unsaid : NamingError)
  deriving DecidableEq, Repr

namespace Failure

/-- An error in the byte code, whose names may be without end. -/
def ofCode : Option CodeError → Failure
  | some cause => .error (.code cause)
  | none => .endless .code

def ofShortage : Option Shortage → Failure
  | some cause => .error (.shortage cause)
  | none => .endless .shortage

def ofCast : Option (String × String) → Failure
  | some (source, target) => .error (.invalidCast source target)
  | none => .endless .invalidCast

end Failure
end ObjectMachine
