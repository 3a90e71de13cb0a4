import ObjectMachine.Opcode
import ObjectMachine.Value

/-!
# Linked instructions

In a program every operand names its target directly: a string by its index in the string table,
a type or method by its place in the program's tables, a field by its place in an instance.
-/

namespace ObjectMachine

/-- A type of a program, by its place in the table of types. -/
structure TypeRef where
  index : Nat
  deriving DecidableEq, Repr, Inhabited

def TypeRef.describe (ref : TypeRef) : String :=
  "type#" ++ toString ref.index

structure MethodRef where
  index : Nat
  deriving DecidableEq, Repr, Inhabited

def MethodRef.describe (ref : MethodRef) : String :=
  "method#" ++ toString ref.index

/-- A field of an instance: what it holds, and where in the payload it lies. -/
structure FieldSlot where
  type : TypeRef
  kind : Kind
  /-- The bytes of the payload in front of it, less than `2 ^ 32` in a layout that fits in words. -/
  offset : Nat
  deriving DecidableEq, Repr, Inhabited

def FieldSlot.describe (slot : FieldSlot) : String :=
  "FieldSlot \x7b ty: " ++ slot.type.describe ++ ", kind: " ++ slot.kind.traceName ++
    ", offset: " ++ toString slot.offset ++ " \x7d"

structure FieldRef where
  /-- The class in whose layout the field was found. -/
  owner : TypeRef
  /-- The index of the field among all fields of the class. -/
  index : Nat
  slot : FieldSlot
  deriving DecidableEq, Repr, Inhabited

def FieldRef.describe (field : FieldRef) : String :=
  "FieldRef \x7b class: " ++ field.owner.describe ++ ", index: " ++ toString field.index ++
    ", slot: " ++ field.slot.describe ++ " \x7d"

inductive Operand where
  | none
  | int (value : Int32)
  | char (value : Char)
  | bool (value : Bool)
  | str (ref : StrRef)
  | slot (index : Nat)
  | branch (offset : Int)
  | type (ref : TypeRef)
  | method (ref : MethodRef)
  | field (ref : FieldRef)
  deriving DecidableEq, Repr, Inhabited

def Operand.describe : Operand → String
  | .none => "None"
  | .int value => "Int(" ++ Text.showInt32 value ++ ")"
  | .char value => "Char(" ++ Text.quoteChar value ++ ")"
  | .bool value => "Bool(" ++ (if value then "true" else "false") ++ ")"
  | .str ref => "Str(" ++ ref.describe ++ ")"
  | .slot index => "Slot(" ++ toString index ++ ")"
  | .branch offset => "Branch(" ++ toString offset ++ ")"
  | .type ref => "Type(" ++ ref.describe ++ ")"
  | .method ref => "Method(" ++ ref.describe ++ ")"
  | .field ref => "Field(" ++ ref.describe ++ ")"

structure Instruction where
  opcode : Opcode
  operand : Operand
  deriving DecidableEq, Repr, Inhabited

end ObjectMachine
