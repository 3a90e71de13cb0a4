/-!
# Instruction set

An opcode has a code byte, by which the binary image format names it, a mnemonic, by which the
text format does, and the kind of operand that follows it. Lookup by code or by mnemonic searches
the list of all opcodes, so each direction is given once.
-/

namespace ObjectMachine

inductive OperandKind where
  | none
  | int
  | char
  | bool
  | str
  | slot
  | branch
  | type
  | method
  | field
  deriving DecidableEq, Repr, Inhabited

def OperandKind.name : OperandKind → String
  | .none => "None"
  | .int => "Int"
  | .char => "Char"
  | .bool => "Bool"
  | .str => "Str"
  | .slot => "Slot"
  | .branch => "Branch"
  | .type => "Type"
  | .method => "Method"
  | .field => "Field"

inductive Opcode where
  | nop
  | ldcI4
  | ldcC
  | ldcB
  | ldstr
  | ldnull
  | ldloc
  | stloc
  | ldarg
  | starg
  | ldthis
  | ldfld
  | stfld
  | newobj
  | newarr
  | ldelem
  | stelem
  | ldlen
  | call
  | callvirt
  | ret
  | isinst
  | castclass
  | br
  | brtrue
  | brfalse
  | add
  | sub
  | mul
  | div
  | rem
  | neg
  | ceq
  | cne
  | clt
  | cle
  | cgt
  | cge
  | and
  | or
  | not
  | convC
  | convI
  | pop
  | dup
  deriving DecidableEq, Repr, Inhabited

namespace Opcode

/-- Every opcode, in the order of the codes. -/
def all : List Opcode :=
  [ .nop, .ldcI4, .ldcC, .ldcB, .ldstr, .ldnull, .ldloc, .stloc, .ldarg, .starg, .ldthis,
    .ldfld, .stfld, .newobj, .newarr, .ldelem, .stelem, .ldlen, .call, .callvirt, .ret, .isinst,
    .castclass, .br, .brtrue, .brfalse, .add, .sub, .mul, .div, .rem, .neg, .ceq, .cne, .clt,
    .cle, .cgt, .cge, .and, .or, .not, .convC, .convI, .pop, .dup ]

def code : Opcode → UInt8
  | .nop => 0x00
  | .ldcI4 => 0x01
  | .ldcC => 0x02
  | .ldcB => 0x03
  | .ldstr => 0x04
  | .ldnull => 0x05
  | .ldloc => 0x10
  | .stloc => 0x11
  | .ldarg => 0x12
  | .starg => 0x13
  | .ldthis => 0x14
  | .ldfld => 0x20
  | .stfld => 0x21
  | .newobj => 0x22
  | .newarr => 0x23
  | .ldelem => 0x24
  | .stelem => 0x25
  | .ldlen => 0x26
  | .call => 0x30
  | .callvirt => 0x31
  | .ret => 0x32
  | .isinst => 0x33
  | .castclass => 0x34
  | .br => 0x40
  | .brtrue => 0x41
  | .brfalse => 0x42
  | .add => 0x50
  | .sub => 0x51
  | .mul => 0x52
  | .div => 0x53
  | .rem => 0x54
  | .neg => 0x55
  | .ceq => 0x60
  | .cne => 0x61
  | .clt => 0x62
  | .cle => 0x63
  | .cgt => 0x64
  | .cge => 0x65
  | .and => 0x70
  | .or => 0x71
  | .not => 0x72
  | .convC => 0x78
  | .convI => 0x79
  | .pop => 0x7E
  | .dup => 0x7F

def mnemonic : Opcode → String
  | .nop => "nop"
  | .ldcI4 => "ldc_i4"
  | .ldcC => "ldc_c"
  | .ldcB => "ldc_b"
  | .ldstr => "ldstr"
  | .ldnull => "ldnull"
  | .ldloc => "ldloc"
  | .stloc => "stloc"
  | .ldarg => "ldarg"
  | .starg => "starg"
  | .ldthis => "ldthis"
  | .ldfld => "ldfld"
  | .stfld => "stfld"
  | .newobj => "newobj"
  | .newarr => "newarr"
  | .ldelem => "ldelem"
  | .stelem => "stelem"
  | .ldlen => "ldlen"
  | .call => "call"
  | .callvirt => "callvirt"
  | .ret => "ret"
  | .isinst => "isinst"
  | .castclass => "castclass"
  | .br => "br"
  | .brtrue => "brtrue"
  | .brfalse => "brfalse"
  | .add => "add"
  | .sub => "sub"
  | .mul => "mul"
  | .div => "div"
  | .rem => "rem"
  | .neg => "neg"
  | .ceq => "ceq"
  | .cne => "cne"
  | .clt => "clt"
  | .cle => "cle"
  | .cgt => "cgt"
  | .cge => "cge"
  | .and => "and"
  | .or => "or"
  | .not => "not"
  | .convC => "conv_c"
  | .convI => "conv_i"
  | .pop => "pop"
  | .dup => "dup"

def traceName : Opcode → String
  | .nop => "Nop"
  | .ldcI4 => "LdcI4"
  | .ldcC => "LdcC"
  | .ldcB => "LdcB"
  | .ldstr => "LdStr"
  | .ldnull => "LdNull"
  | .ldloc => "LdLoc"
  | .stloc => "StLoc"
  | .ldarg => "LdArg"
  | .starg => "StArg"
  | .ldthis => "LdThis"
  | .ldfld => "LdFld"
  | .stfld => "StFld"
  | .newobj => "NewObj"
  | .newarr => "NewArr"
  | .ldelem => "LdElem"
  | .stelem => "StElem"
  | .ldlen => "LdLen"
  | .call => "Call"
  | .callvirt => "CallVirt"
  | .ret => "Ret"
  | .isinst => "IsInst"
  | .castclass => "CastClass"
  | .br => "Br"
  | .brtrue => "BrTrue"
  | .brfalse => "BrFalse"
  | .add => "Add"
  | .sub => "Sub"
  | .mul => "Mul"
  | .div => "Div"
  | .rem => "Rem"
  | .neg => "Neg"
  | .ceq => "Ceq"
  | .cne => "Cne"
  | .clt => "Clt"
  | .cle => "Cle"
  | .cgt => "Cgt"
  | .cge => "Cge"
  | .and => "And"
  | .or => "Or"
  | .not => "Not"
  | .convC => "ConvC"
  | .convI => "ConvI"
  | .pop => "Pop"
  | .dup => "Dup"

def operandKind : Opcode → OperandKind
  | .ldcI4 => .int
  | .ldcC => .char
  | .ldcB => .bool
  | .ldstr => .str
  | .ldloc | .stloc | .ldarg | .starg => .slot
  | .br | .brtrue | .brfalse => .branch
  | .newobj | .newarr | .isinst | .castclass => .type
  | .call | .callvirt => .method
  | .ldfld | .stfld => .field
  | _ => .none

def ofCode? (code : UInt8) : Option Opcode :=
  all.find? fun op => op.code == code

def ofMnemonic? (mnemonic : String) : Option Opcode :=
  all.find? fun op => op.mnemonic == mnemonic

end Opcode
end ObjectMachine
