import ObjectMachine.Image.Source.Reader

/-!
# Writing text images

An image is written as a list of lines: its types, then each method with its instructions, then
the main line. A line either has a text or cannot be written, because of a name the format has no
place for or an operand that its opcode does not take. The text of an image exists if every line
has one; what was written before a line failed is the text of the lines in front of it.
-/

namespace ObjectMachine
namespace Image
namespace Source

abbrev Line := Except ImageFault (List Char)

/-- Whether the format can hold a name: it is not empty and has no blank and no exclamation
mark. -/
def isName (name : String) : Bool :=
  !name.isEmpty && !name.toList.any fun c => Text.isBlank c || c == '!'

def numbers (values : List Int32) : List Char :=
  values.flatMap fun value => ' ' :: Text.signedDecimal value.toInt

def optionalSection (key : String) (value : Option Int32) : List Char :=
  match value with
  | some value => key.toList ++ Text.signedDecimal value.toInt
  | none => []

def declarationLine (kind : HeaderKind) (name : String) (sections : List Char) : Line :=
  if isName name then
    .ok ('!' :: kind.name.toList ++ [':', ' '] ++ name.toList ++ sections ++ ['!'])
  else
    .error (.unwritableName name)

def numberLine (kind : HeaderKind) (value : Int32) : List Char :=
  '!' :: kind.name.toList ++ [':', ' '] ++ Text.signedDecimal value.toInt ++ ['!']

def typeLine : TypeDef → Line
  | .ofClass c =>
      declarationLine .ofClass c.name
        (optionalSection " base: " c.base ++ " fields:".toList ++ numbers c.fields ++
          " methods:".toList ++ numbers c.methods)
  | .ofArray element => .ok (numberLine .ofArray element)

def methodLine (method : MethodDef) : Line :=
  declarationLine .ofMethod method.name
    (optionalSection " returns: " method.returns ++ " params:".toList ++ numbers method.params ++
      " locals:".toList ++ numbers method.locals)

def operandText : OperandDef → List Char
  | .none => []
  | .int value => Text.signedDecimal value.toInt
  | .char value => literal Text.singleQuote [value]
  | .bool value => if value then "true".toList else "false".toList
  | .str text => literal Text.doubleQuote text.toList
  | .slot index => Text.decimal index.toNat
  | .branch offset => Text.offsetDecimal offset.toInt
  | .type index => Text.signedDecimal index.toInt
  | .method index => Text.signedDecimal index.toInt
  | .field owner index =>
      Text.signedDecimal owner.toInt ++ '.' :: Text.decimal index.toNat

def instructionLine (method : String) (insn : InstructionDef) : Line :=
  if !insn.fits then
    .error (.unwritableOperand insn.opcode method insn.operand.kind)
  else
    match insn.operand with
    | .none => .ok ('\t' :: insn.opcode.mnemonic.toList)
    | operand => .ok ('\t' :: insn.opcode.mnemonic.toList ++ ' ' :: operandText operand)

def methodLines (method : MethodDef) : List Line :=
  methodLine method :: method.code.map (instructionLine method.name)

def imageLines (image : Image) : List Line :=
  image.types.map typeLine ++ image.methods.flatMap methodLines ++
    [.ok (numberLine .ofMain image.main)]

def joinLines (lines : List (List Char)) : List Char :=
  lines.flatMap fun line => line ++ ['\n']

def write (image : Image) : Except ImageFault (List Char) := do
  let lines ← (imageLines image).mapM id
  .ok (joinLines lines)

/-- The lines in front of the first that cannot be written. -/
def writable : List Line → List (List Char)
  | .ok line :: rest => line :: writable rest
  | _ => []

/-- What has been written of an image when its text is complete or a line fails. -/
def written (image : Image) : List Char :=
  joinLines (writable (imageLines image))

end Source
end Image
end ObjectMachine
