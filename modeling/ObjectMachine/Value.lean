import ObjectMachine.Text.Quoted

/-!
# Values

A value is what a slot, a field, an array element or a stack entry holds: a boolean, a character,
a signed 32-bit integer, an interned string or a reference to a heap block. Its kind is its tag;
the kind fixes the number of bytes the value takes in a heap block and the value a fresh slot
starts with.
-/

namespace ObjectMachine

/-!
## Addresses and string references
-/

/-- A heap address: the position of a block's header in the arena. -/
structure Addr where
  /-- The position. -/
  word : UInt32
  deriving DecidableEq, Repr

namespace Addr

def null : Addr := ⟨0xFFFFFFFF⟩

instance : Inhabited Addr := ⟨null⟩

def isNull (addr : Addr) : Bool :=
  addr == null

def pos (addr : Addr) : Nat :=
  addr.word.toNat

/-- The address of a position below `2 ^ 32`. -/
def ofPos (pos : Nat) : Addr :=
  ⟨UInt32.ofNat pos⟩

def describe (addr : Addr) : String :=
  if addr.isNull then "null" else "@0x" ++ Text.showHex addr.pos

end Addr

structure StrRef where
  /-- The index. -/
  word : UInt32
  deriving DecidableEq, Repr

namespace StrRef

/-- The empty string, which every table holds first. -/
def empty : StrRef := ⟨0⟩

instance : Inhabited StrRef := ⟨empty⟩

def index (ref : StrRef) : Nat :=
  ref.word.toNat

def describe (ref : StrRef) : String :=
  "str#" ++ toString ref.index

end StrRef

/-!
## Kinds
-/

inductive Kind where
  | bool
  | char
  | int
  | str
  | ref
  deriving DecidableEq, Repr, Inhabited

namespace Kind

def width : Kind → Nat
  | .bool => 1
  | .char | .int | .str | .ref => 4

def name : Kind → String
  | .bool => "bool"
  | .char => "char"
  | .int => "int"
  | .str => "string"
  | .ref => "reference"

def traceName : Kind → String
  | .bool => "Bool"
  | .char => "Char"
  | .int => "Int"
  | .str => "Str"
  | .ref => "Ref"

end Kind

/-!
## Values
-/

inductive Value where
  | bool (b : Bool)
  | char (c : Char)
  | int (i : Int32)
  | str (s : StrRef)
  | ref (addr : Addr)
  deriving DecidableEq, Repr, Inhabited

namespace Value

def kind : Value → Kind
  | .bool _ => .bool
  | .char _ => .char
  | .int _ => .int
  | .str _ => .str
  | .ref _ => .ref

def root? : Value → Option Addr
  | .ref addr => if addr.isNull then none else some addr
  | _ => none

def describe : Value → String
  | .bool b => "Bool(" ++ (if b then "true" else "false") ++ ")"
  | .char c => "Char(" ++ Text.quoteChar c ++ ")"
  | .int i => "Int(" ++ Text.showInt32 i ++ ")"
  | .str s => "Str(" ++ s.describe ++ ")"
  | .ref addr => "Ref(" ++ addr.describe ++ ")"

def describeList (values : List Value) : String :=
  "[" ++ ", ".intercalate (values.map describe) ++ "]"

end Value

def Kind.default : Kind → Value
  | .bool => .bool false
  | .char => .char '\x00'
  | .int => .int 0
  | .str => .str .empty
  | .ref => .ref .null

@[simp] theorem Kind.kind_default (kind : Kind) : kind.default.kind = kind := by
  cases kind <;> rfl

end ObjectMachine
