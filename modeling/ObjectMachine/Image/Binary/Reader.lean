import ObjectMachine.Error
import ObjectMachine.Image.Basic
import ObjectMachine.Word

/-!
# Reading binary images

A binary image is four bytes of magic, a version, the types, the methods and the number of the
main method. All numbers are big-endian. Lists and texts follow their length, so each part
knows where it ends: a reader takes bytes from the front of its input and hands back the rest.
What follows the image is left alone.

Input that ends in front of the bytes that were asked for is trouble with the input to begin with.
The reader that asked turns it into a fault of the image.
-/

namespace ObjectMachine
namespace Image
namespace Binary

abbrev Bytes := List UInt8

/-- A reader takes a value from the front of its input, or finds out what is wrong with it. -/
abbrev Reader (α : Type) := Bytes → Except Error (α × Bytes)

/-- The input ends in front of the bytes that were asked for. -/
def unfilled : Error :=
  .ofDecode .unfilled

def malformed (fault : ByteFault) : Error :=
  .image (.bytes fault)

def magic : Bytes := [0x4F, 0x4F, 0x56, 0x4D]

def version : Nat := 1

def classTag : UInt8 := 0

def arrayTag : UInt8 := 1

/-!
## Numbers, texts and lists
-/

def readByte : Reader UInt8
  | b :: rest => .ok (b, rest)
  | [] => .error unfilled

def readHalf : Reader Nat
  | b₀ :: b₁ :: rest => .ok (b₀.toNat * 256 + b₁.toNat, rest)
  | _ => .error unfilled

def readWord : Reader UInt32
  | b₀ :: b₁ :: b₂ :: b₃ :: rest => .ok (Word.ofBytes b₀ b₁ b₂ b₃, rest)
  | _ => .error unfilled

def readInt : Reader Int32 := fun input => do
  let (word, rest) ← readWord input
  .ok (word.toInt32, rest)

def readFlag : Reader Bool := fun input => do
  let (b, rest) ← readByte input
  if b = 0 then .ok (false, rest)
  else if b = 1 then .ok (true, rest)
  else .error (malformed (.badFlag b))

/-- A number that may be absent: a flag, and four bytes in either case. -/
def readOptionalInt : Reader (Option Int32) := fun input => do
  let (present, rest) ← readFlag input
  let (index, rest) ← readInt rest
  .ok (if present then some index else none, rest)

/-- A text: its length in bytes, then its UTF-8 form. -/
def readText : Reader String := fun input => do
  let (length, rest) ← readWord input
  let body := rest.take length.toNat
  if body.length ≠ length.toNat then
    .error (malformed .shortText)
  else
    match String.fromUTF8? ⟨body.toArray⟩ with
    | some text => .ok (text, rest.drop length.toNat)
    | none => .error (malformed .textNotUtf8)

def readMany {α : Type} (reader : Reader α) : Nat → Reader (List α)
  | 0, input => .ok ([], input)
  | n + 1, input => do
      let (value, rest) ← reader input
      let (values, rest) ← readMany reader n rest
      .ok (value :: values, rest)

def readList {α : Type} (reader : Reader α) : Reader (List α) := fun input => do
  let (count, rest) ← readWord input
  readMany reader count.toNat rest

/-!
## Types
-/

def readClass : Reader ClassDef := fun input => do
  let (name, rest) ← readText input
  let (base, rest) ← readOptionalInt rest
  let (fields, rest) ← readList readInt rest
  let (methods, rest) ← readList readInt rest
  .ok ({ name, base, fields, methods }, rest)

def readType : Reader TypeDef := fun input => do
  let (tag, rest) ← readByte input
  if tag = classTag then
    let (c, rest) ← readClass rest
    .ok (.ofClass c, rest)
  else if tag = arrayTag then
    let (element, rest) ← readInt rest
    .ok (.ofArray element, rest)
  else
    .error (malformed (.unknownTypeKind tag))

/-!
## Methods
-/

def readOperand : OperandKind → Reader OperandDef
  | .none, input => .ok (.none, input)
  | .int, input => do
      let (value, rest) ← readInt input
      .ok (.int value, rest)
  | .char, input => do
      let (code, rest) ← readWord input
      match Word.toChar? code with
      | some c => .ok (.char c, rest)
      | none => .error (malformed (.badChar code.toNat))
  | .bool, input => do
      let (value, rest) ← readFlag input
      .ok (.bool value, rest)
  | .str, input => do
      let (text, rest) ← readText input
      .ok (.str text, rest)
  | .slot, input => do
      let (index, rest) ← readWord input
      .ok (.slot index, rest)
  | .branch, input => do
      let (offset, rest) ← readInt input
      .ok (.branch offset, rest)
  | .type, input => do
      let (index, rest) ← readInt input
      .ok (.type index, rest)
  | .method, input => do
      let (index, rest) ← readInt input
      .ok (.method index, rest)
  | .field, input => do
      let (owner, rest) ← readInt input
      let (index, rest) ← readWord rest
      .ok (.field owner index, rest)

def readInstruction (method : String) : Reader InstructionDef := fun input => do
  let (code, rest) ← readByte input
  match Opcode.ofCode? code with
  | some opcode =>
      let (operand, rest) ← readOperand opcode.operandKind rest
      .ok ({ opcode, operand }, rest)
  | none => .error (malformed (.unknownOpcode code method))

def readMethod : Reader MethodDef := fun input => do
  let (name, rest) ← readText input
  let (returns, rest) ← readOptionalInt rest
  let (params, rest) ← readList readInt rest
  let (locals, rest) ← readList readInt rest
  let (code, rest) ← readList (readInstruction name) rest
  .ok ({ name, returns, params, locals, code }, rest)

/-!
## Images
-/

def readPreamble : Reader Unit := fun input => do
  if input.length < magic.length then
    .error unfilled
  else if input.take magic.length ≠ magic then
    .error (malformed .badMagic)
  else
    let (found, rest) ← readHalf (input.drop magic.length)
    if found = version then .ok ((), rest) else .error (malformed (.unsupportedVersion found))

def readImage : Reader Image := fun input => do
  let (_, rest) ← readPreamble input
  let (types, rest) ← readList readType rest
  let (methods, rest) ← readList readMethod rest
  let (main, rest) ← readInt rest
  .ok ({ types, methods, main }, rest)

def hasMagic (input : Bytes) : Bool :=
  magic.isPrefixOf input

def read (input : Bytes) : Except Error Image := do
  let (image, _) ← readImage input
  .ok image

end Binary
end Image
end ObjectMachine
