import ObjectMachine.Opcode
import ObjectMachine.Text.Quoted

/-!
# What can be wrong with an image

The causes for which an image is refused: a fault of its bytes, of a line of its text, of its
structure, or of a name or operand that a format cannot express. The wording of each is given
once, in `ImageFault.message`.
-/

namespace ObjectMachine

inductive EscapeFault where
  | noBrace
  | badHex (digits : String)
  | badScalar (code : Nat)
  | unknown (c : Char)
  deriving DecidableEq, Repr

def EscapeFault.message : EscapeFault → String
  | .noBrace => "expected \x7b after \\u"
  | .badHex digits => "bad unicode escape " ++ Text.quote digits
  | .badScalar code => "bad unicode scalar " ++ Text.showHex code
  | .unknown c => "unknown escape \\" ++ String.singleton c

inductive HeaderKind where
  | ofClass
  | ofArray
  | ofMethod
  | ofMain
  deriving DecidableEq, Repr

def HeaderKind.name : HeaderKind → String
  | .ofClass => "Class"
  | .ofArray => "Array"
  | .ofMethod => "Method"
  | .ofMain => "Main"

inductive LineFault where
  | badNumber (text : String)
  | outsideMethod
  | repeatedLabel (label : String)
  | undefinedLabel (label : String)
  | unparseable (text : String)
  | unknownInstruction (name : String)
  | malformedHeader (kind : HeaderKind)
  | secondMain
  | unwantedOperand (opcode : Opcode) (operand : String)
  | missingOperand (opcode : Opcode)
  | notQuotedChar
  | notOneChar (operand : String)
  | notQuotedText
  | badBool (operand : String)
  | badField (operand : String)
  | badEscape (fault : EscapeFault)
  deriving DecidableEq, Repr

def LineFault.message : LineFault → String
  | .badNumber text => "bad number " ++ Text.quote text
  | .outsideMethod => "instruction outside of a method"
  | .repeatedLabel label => "label :" ++ label ++ " defined twice"
  | .undefinedLabel label => "undefined label :" ++ label
  | .unparseable text => "unparseable line " ++ Text.quote text
  | .unknownInstruction name => "unknown instruction " ++ Text.quote name
  | .malformedHeader kind => "malformed !" ++ kind.name ++ ": header"
  | .secondMain => "second !Main: line"
  | .unwantedOperand opcode operand =>
      opcode.mnemonic ++ " takes no operand, got " ++ Text.quote operand
  | .missingOperand opcode => opcode.mnemonic ++ " needs an operand"
  | .notQuotedChar => "expected 'c'"
  | .notOneChar operand => "char literal " ++ operand ++ " is not one char"
  | .notQuotedText => "expected \"text\""
  | .badBool operand => "bad bool " ++ Text.quote operand
  | .badField operand => "bad field operand " ++ Text.quote operand
  | .badEscape fault => fault.message

inductive ByteFault where
  | badMagic
  | unsupportedVersion (version : Nat)
  | badFlag (byte : UInt8)
  | shortText
  | textNotUtf8
  | unknownTypeKind (byte : UInt8)
  | badChar (code : Nat)
  | unknownOpcode (byte : UInt8) (method : String)
  deriving DecidableEq, Repr

def ByteFault.message : ByteFault → String
  | .badMagic => "not a binary image (bad magic)"
  | .unsupportedVersion version => "unsupported image version " ++ toString version
  | .badFlag byte => "bad flag byte " ++ toString byte.toNat
  | .shortText => "truncated string"
  | .textNotUtf8 => "string is not valid UTF-8"
  | .unknownTypeKind byte => "unknown type kind " ++ toString byte.toNat
  | .badChar code => "bad char literal 0x" ++ Text.showHex code
  | .unknownOpcode byte method =>
      "unknown opcode 0x" ++ Text.showHexByte byte ++ " in " ++ method

inductive IndexFault where
  | type (index : Int32)
  | method (index : Int32)
  deriving DecidableEq, Repr

def IndexFault.message : IndexFault → String
  | .type index => "type index " ++ Text.showInt32 index ++ " does not resolve"
  | .method index => "method index " ++ Text.showInt32 index ++ " does not resolve"

def imageFaultLead : String := "invalid image: "

inductive CodeFault where
  | wrongOperand (expected found : OperandKind)
  | noReceiver
  | noSlot (index count : Nat)
  | branchOutside (target : Int)
  | unresolved (fault : IndexFault)
  | unsuitableType (index : Int32)
  | ownerNotClass
  | noField (index : Nat)
  deriving DecidableEq, Repr

def CodeFault.message : CodeFault → String
  | .wrongOperand expected found =>
      "expected a " ++ expected.name ++ " operand, found " ++ found.name
  | .noReceiver => "method has no receiver"
  | .noSlot index count => "slot " ++ toString index ++ " of " ++ toString count
  | .branchOutside target => "branch target " ++ toString target ++ " outside the method"
  | .unresolved fault => imageFaultLead ++ fault.message
  | .unsuitableType index => "unsuitable type index " ++ Text.showInt32 index
  | .ownerNotClass => "field owner is not a class"
  | .noField index => "no field " ++ toString index

inductive ImageFault where
  /-- A line of the text, by its number. -/
  | line (number : Nat) (fault : LineFault)
  | noMain
  | bytes (fault : ByteFault)
  /-- A failure of a foreign decoder, in its own words. -/
  | undecodable (text : String)
  /-- A name that the text format cannot hold. -/
  | unwritableName (name : String)
  /-- An operand of a kind that neither format can hold. -/
  | unwritableOperand (opcode : Opcode) (method : String) (kind : OperandKind)
  /-- A number that names nothing. -/
  | unresolved (fault : IndexFault)
  | invalidBase (className : String) (index : Int32)
  | claimedBuiltin (className : String) (builtin : String)
  | claimedTwice (method : String)
  | inheritanceCycle (className : String)
  /-- An instruction of a method, by its position. -/
  | code (opcode : Opcode) (method : String) (ip : Nat) (fault : CodeFault)
  | entryBuiltin
  | entrySignature (method : String)
  | entryReceiver (method : String)
  deriving DecidableEq, Repr

def ImageFault.message : ImageFault → String
  | .line number fault => "line " ++ toString number ++ ": " ++ fault.message
  | .noMain => "text image has no !Main: line"
  | .bytes fault => fault.message
  | .undecodable text => text
  | .unwritableName name =>
      "identifier " ++ Text.quote name ++ " cannot be written in the text format"
  | .unwritableOperand opcode method kind =>
      opcode.mnemonic ++ " in " ++ method ++ " carries a " ++ kind.name ++ " operand"
  | .unresolved fault => fault.message
  | .invalidBase className index =>
      "class " ++ className ++ " has an invalid base (index " ++ Text.showInt32 index ++ ")"
  | .claimedBuiltin className builtin =>
      "class " ++ className ++ " claims the built-in " ++ builtin
  | .claimedTwice method => "method " ++ method ++ " is declared by more than one class"
  | .inheritanceCycle className => "inheritance cycle through class " ++ className
  | .code opcode method ip fault =>
      opcode.mnemonic ++ " in " ++ method ++ " at " ++ toString ip ++ ": " ++ fault.message
  | .entryBuiltin => "entry point is a built-in"
  | .entrySignature method =>
      "entry point " ++ method ++ " must take no parameters and return nothing"
  | .entryReceiver method => "entry point " ++ method ++ " needs a receiver"

end ObjectMachine
