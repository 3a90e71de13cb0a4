import ObjectMachine.Image.Binary.Reader

/-!
# Writing binary images

The inverse of reading: each part is written in the shape in which it is read. The only images
that cannot be written are those with an operand of a kind that its opcode does not take.
-/

namespace ObjectMachine
namespace Image
namespace Binary

def writeInt (value : Int32) : Bytes :=
  Word.bytes value.toUInt32

def writeFlag (value : Bool) : Bytes :=
  [if value then 1 else 0]

/-- A number that may be absent. An absent one is written as zero behind its flag. -/
def writeOptionalInt (index : Option Int32) : Bytes :=
  writeFlag index.isSome ++ writeInt (index.getD 0)

def writeLength (length : Nat) : Bytes :=
  Word.bytes (UInt32.ofNat length)

def writeText (text : String) : Bytes :=
  let body := text.toUTF8.toList
  writeLength body.length ++ body

def writeList {α : Type} (writer : α → Bytes) (values : List α) : Bytes :=
  writeLength values.length ++ values.flatMap writer

def writeType : TypeDef → Bytes
  | .ofClass c =>
      classTag :: (writeText c.name ++ writeOptionalInt c.base ++
        writeList writeInt c.fields ++ writeList writeInt c.methods)
  | .ofArray element => arrayTag :: writeInt element

def writeOperand : OperandDef → Bytes
  | .none => []
  | .int value => writeInt value
  | .char value => Word.bytes value.val
  | .bool value => writeFlag value
  | .str text => writeText text
  | .slot index => Word.bytes index
  | .branch offset => writeInt offset
  | .type index => writeInt index
  | .method index => writeInt index
  | .field owner index => writeInt owner ++ Word.bytes index

def writeInstruction (insn : InstructionDef) : Bytes :=
  insn.opcode.code :: writeOperand insn.operand

def writeMethod (method : MethodDef) : Bytes :=
  writeText method.name ++ writeOptionalInt method.returns ++
    writeList writeInt method.params ++ writeList writeInt method.locals ++
    writeList writeInstruction method.code

/-- The bytes of an image, whether or not its operands fit. -/
def imageBytes (image : Image) : Bytes :=
  magic ++ [0, UInt8.ofNat version] ++ writeList writeType image.types ++
    writeList writeMethod image.methods ++ writeInt image.main

end Binary

/-- The first operand of an image that its opcode does not take. -/
def misfit? (image : Image) : Option ImageFault :=
  image.methods.findSome? fun method =>
    (method.code.find? fun insn => !insn.fits).map fun insn =>
      .unwritableOperand insn.opcode method.name insn.operand.kind

namespace Binary

def write (image : Image) : Except ImageFault Bytes :=
  match image.misfit? with
  | some fault => .error fault
  | none => .ok (imageBytes image)

end Binary
end Image
end ObjectMachine
