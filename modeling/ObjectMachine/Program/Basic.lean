import ObjectMachine.Program.Instruction
import ObjectMachine.StringTable

/-!
# Programs

A program is a linked image. Its tables start with what is built in: types 0 to 3 are the
primitive types, methods 0 to 6 the built-in methods. The types and methods of the image follow
in their order. Every class has the layout of its instances and a dispatch table.
-/

namespace ObjectMachine

/-!
## Types
-/

inductive Primitive where
  | bool
  | char
  | int
  | string
  deriving DecidableEq, Repr, Inhabited

namespace Primitive

def all : List Primitive := [.bool, .char, .int, .string]

def name : Primitive → String
  | .bool => "bool"
  | .char => "char"
  | .int => "int"
  | .string => "string"

def kind : Primitive → Kind
  | .bool => .bool
  | .char => .char
  | .int => .int
  | .string => .str

def ref : Primitive → TypeRef
  | .bool => ⟨0⟩
  | .char => ⟨1⟩
  | .int => ⟨2⟩
  | .string => ⟨3⟩

end Primitive

structure ClassDescriptor where
  name : String
  base : Option TypeRef
  ownFields : List TypeRef
  methods : List MethodRef
  /-- All fields of an instance, those of the base first. -/
  fields : List FieldSlot
  /-- The bytes that the fields of an instance take. -/
  size : Nat
  /-- The method that a name denotes on an instance, in the order of the names. -/
  vtable : List (String × MethodRef)
  deriving DecidableEq, Repr, Inhabited

structure ArrayDescriptor where
  element : TypeRef
  elementKind : Kind
  deriving DecidableEq, Repr, Inhabited

inductive TypeDescriptor where
  | primitive (p : Primitive)
  | ofClass (c : ClassDescriptor)
  | ofArray (a : ArrayDescriptor)
  deriving DecidableEq, Repr, Inhabited

/-- The kind of the values of a type. Instances and arrays are held by reference. -/
def TypeDescriptor.kind : TypeDescriptor → Kind
  | .primitive p => p.kind
  | .ofClass _ => .ref
  | .ofArray _ => .ref

/-!
## Methods
-/

inductive Builtin where
  | halt
  | writeChar
  | writeInt
  | writeString
  | readChar
  | readInt
  | readString
  deriving DecidableEq, Repr, Inhabited

namespace Builtin

def all : List Builtin :=
  [.halt, .writeChar, .writeInt, .writeString, .readChar, .readInt, .readString]

def name : Builtin → String
  | .halt => "Halt"
  | .writeChar => "WriteChar"
  | .writeInt => "WriteInt"
  | .writeString => "WriteString"
  | .readChar => "ReadChar"
  | .readInt => "ReadInt"
  | .readString => "ReadString"

def params : Builtin → List Primitive
  | .halt | .writeString => [.string]
  | .writeChar => [.char]
  | .writeInt => [.int]
  | .readChar | .readInt | .readString => []

def returns : Builtin → Option Primitive
  | .readChar => some .char
  | .readInt => some .int
  | .readString => some .string
  | _ => none

end Builtin

structure MethodDescriptor where
  name : String
  /-- The class that declares it. Its calls take a receiver beneath their arguments. -/
  owner : Option TypeRef
  /-- What it does, if it is built in. -/
  builtin : Option Builtin
  returns : Option TypeRef
  params : List TypeRef
  locals : List TypeRef
  code : Array Instruction
  deriving DecidableEq, Repr, Inhabited

def MethodDescriptor.isInstance (method : MethodDescriptor) : Bool :=
  method.owner.isSome

def Builtin.descriptor (builtin : Builtin) : MethodDescriptor where
  name := builtin.name
  owner := none
  builtin := some builtin
  returns := builtin.returns.map Primitive.ref
  params := builtin.params.map Primitive.ref
  locals := []
  code := #[]

/-!
## Programs
-/

structure Program where
  types : Array TypeDescriptor
  methods : Array MethodDescriptor
  entry : MethodRef
  strings : StringTable
  deriving DecidableEq, Repr, Inhabited

namespace Program

def type? (program : Program) (ref : TypeRef) : Option TypeDescriptor :=
  program.types[ref.index]?

def class? (program : Program) (ref : TypeRef) : Option ClassDescriptor :=
  match program.type? ref with
  | some (.ofClass c) => some c
  | _ => none

def array? (program : Program) (ref : TypeRef) : Option ArrayDescriptor :=
  match program.type? ref with
  | some (.ofArray a) => some a
  | _ => none

def method? (program : Program) (ref : MethodRef) : Option MethodDescriptor :=
  program.methods[ref.index]?

/-- The kind of the values of a type. A reference outside the table counts as a class. -/
def kindOf (program : Program) (ref : TypeRef) : Kind :=
  match program.type? ref with
  | some descriptor => descriptor.kind
  | none => .ref

/-!
## Names
-/

def typeNameWithin? (program : Program) : Nat → TypeRef → Option String
  | steps, ref =>
      match program.type? ref with
      | some (.primitive p) => some p.name
      | some (.ofClass c) => some c.name
      | some (.ofArray a) =>
          match steps with
          | 0 => none
          | steps + 1 => (typeNameWithin? program steps a.element).map (· ++ "[]")
      | none => some ref.describe

/-- The name of a type. The search for that of an array type whose elements are arrays without end
comes to no end; it is told by its steps, more than the table has types. -/
def typeName? (program : Program) (ref : TypeRef) : Option String :=
  program.typeNameWithin? program.types.size ref

def methodName (program : Program) (ref : MethodRef) : String :=
  match program.method? ref with
  | none => ref.describe
  | some method =>
      match method.owner.bind program.class? with
      | some c => c.name ++ "." ++ method.name
      | none => method.name

/-!
## Inheritance
-/

def base? (program : Program) (ref : TypeRef) : Option TypeRef :=
  (program.class? ref).bind (·.base)

def chainWithin (program : Program) : Nat → TypeRef → List TypeRef
  | 0, ref => [ref]
  | steps + 1, ref =>
      match program.base? ref with
      | some base => ref :: chainWithin program steps base
      | none => [ref]

/-- A type and the classes above it. No chain without repetition is longer than the table. -/
def chain (program : Program) (ref : TypeRef) : List TypeRef :=
  program.chainWithin program.types.size ref

/-- Whether a type is, or descends from, another. -/
def isSubclass (program : Program) (derived base : TypeRef) : Bool :=
  (program.chain derived).contains base

def resolveVirtual? (program : Program) (ref : TypeRef) (name : String) : Option MethodRef :=
  (program.class? ref).bind fun c => c.vtable.lookup name

/-!
## Lookup by name
-/

def findType? (program : Program) (name : String) : Option TypeRef :=
  (program.types.findIdx? fun
    | .ofClass c => c.name == name
    | _ => false).map TypeRef.mk

/-- The first method with a name that a class declares, or that belongs to no class. Built-in
methods are not found. -/
def findMethod? (program : Program) (className : Option String) (name : String) :
    Option MethodRef :=
  let find (owner : Option TypeRef) : Option MethodRef :=
    (program.methods.findIdx? fun method =>
      method.name == name && method.owner == owner && method.builtin.isNone).map MethodRef.mk
  match className with
  | none => find none
  | some className =>
      match program.findType? className with
      | none => none
      | some owner => find (some owner)

end Program
end ObjectMachine
