import ObjectMachine.Opcode

/-!
# Program images

An image is a flat description of the types and the methods of a program. Types and methods are
numbered in order of appearance from zero, and refer to each other by these numbers in any order.
A negative number names a built-in: types -1 to -4 are the primitive types, methods -1 to -7 the
built-in methods. Nothing in an image has been checked.
-/

namespace ObjectMachine

/-- The operand of an instruction, with types, methods and fields still given by number. -/
inductive OperandDef where
  | none
  | int (value : Int32)
  | char (value : Char)
  | bool (value : Bool)
  | str (text : String)
  | slot (index : UInt32)
  | branch (offset : Int32)
  | type (index : Int32)
  | method (index : Int32)
  | field (owner : Int32) (index : UInt32)
  deriving DecidableEq, Repr, Inhabited

def OperandDef.kind : OperandDef → OperandKind
  | .none => .none
  | .int _ => .int
  | .char _ => .char
  | .bool _ => .bool
  | .str _ => .str
  | .slot _ => .slot
  | .branch _ => .branch
  | .type _ => .type
  | .method _ => .method
  | .field _ _ => .field

structure InstructionDef where
  opcode : Opcode
  /-- What to do it with, perhaps of a kind the opcode does not take. -/
  operand : OperandDef
  deriving DecidableEq, Repr, Inhabited

/-- Whether the operand is of the kind that the opcode takes. -/
def InstructionDef.fits (insn : InstructionDef) : Bool :=
  insn.operand.kind == insn.opcode.operandKind

structure MethodDef where
  /-- The name, by which virtual calls find the method. -/
  name : String
  returns : Option Int32
  params : List Int32
  locals : List Int32
  code : List InstructionDef
  deriving DecidableEq, Repr, Inhabited

structure ClassDef where
  /-- The name, which appears in messages. -/
  name : String
  base : Option Int32
  fields : List Int32
  methods : List Int32
  deriving DecidableEq, Repr, Inhabited

/-- A type of an image: a class, or an array type with its element type. -/
inductive TypeDef where
  | ofClass (c : ClassDef)
  | ofArray (element : Int32)
  deriving DecidableEq, Repr, Inhabited

/-- A program before linking. -/
structure Image where
  /-- The types, numbered from zero. -/
  types : List TypeDef
  /-- The methods, numbered from zero. -/
  methods : List MethodDef
  main : Int32
  deriving DecidableEq, Repr, Inhabited

end ObjectMachine
