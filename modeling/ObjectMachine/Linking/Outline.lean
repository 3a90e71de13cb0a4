import ObjectMachine.Image.Basic
import ObjectMachine.Image.Fault
import ObjectMachine.Program.Basic

/-!
# Outlines

The first step of linking turns the numbers of an image into references. The types are taken in
order, and of a class its base, its fields and its methods; then the methods, and of each its
result, its parameters and its local variables. The first number that names nothing, or names
the wrong thing, is what the image is refused for. A method belongs to the one class that lists
it.

The result is an outline: everything but the layouts of the classes and the code.
-/

namespace ObjectMachine
namespace Image

/-!
## References
-/

/-- The place in a table with built-in entries in front: a negative number counts through the
built-in entries, any other through the declared ones. -/
def placeOf? (builtins declared : Nat) (index : Int32) : Option Nat :=
  let i := index.toInt
  if i < 0 then
    let place := (-i - 1).toNat
    if place < builtins then some place else none
  else if i.toNat < declared then
    some (builtins + i.toNat)
  else
    none

def primitiveCount : Nat := Primitive.all.length

def builtinCount : Nat := Builtin.all.length

def typeRef (image : Image) (index : Int32) : Except IndexFault TypeRef :=
  match placeOf? primitiveCount image.types.length index with
  | some place => .ok ⟨place⟩
  | none => .error (.type index)

def methodRef (image : Image) (index : Int32) : Except IndexFault MethodRef :=
  match placeOf? builtinCount image.methods.length index with
  | some place => .ok ⟨place⟩
  | none => .error (.method index)

def typeRefs (image : Image) (indices : List Int32) : Except IndexFault (List TypeRef) :=
  indices.mapM image.typeRef

/-- The declaration of a type. The primitive types have none. -/
def typeDef? (image : Image) (ref : TypeRef) : Option TypeDef :=
  if ref.index < primitiveCount then none else image.types[ref.index - primitiveCount]?

def isClass (image : Image) (ref : TypeRef) : Bool :=
  match image.typeDef? ref with
  | some (.ofClass _) => true
  | _ => false

def isArray (image : Image) (ref : TypeRef) : Bool :=
  match image.typeDef? ref with
  | some (.ofArray _) => true
  | _ => false

def methodName (image : Image) (ref : MethodRef) : String :=
  if ref.index < builtinCount then
    ((Builtin.all[ref.index]?).map Builtin.name).getD ""
  else
    ((image.methods[ref.index - builtinCount]?).map MethodDef.name).getD ""

end Image

/-- The kind of the values of a type, which its place tells: all but the primitive types are held
by reference. -/
def TypeRef.kind (ref : TypeRef) : Kind :=
  match Primitive.all[ref.index]? with
  | some p => p.kind
  | none => .ref

/-!
## Outlines
-/

structure ClassOutline where
  name : String
  base : Option TypeRef
  ownFields : List TypeRef
  methods : List MethodRef
  deriving DecidableEq, Repr

inductive TypeOutline where
  | ofClass (c : ClassOutline)
  | ofArray (element : TypeRef)
  deriving DecidableEq, Repr

/-- A method with its references, still without code. -/
structure MethodOutline where
  name : String
  owner : Option TypeRef
  returns : Option TypeRef
  params : List TypeRef
  locals : List TypeRef
  deriving DecidableEq, Repr

structure Outline where
  types : List TypeOutline
  methods : List MethodOutline
  deriving DecidableEq, Repr

/-- The methods that classes have listed so far, each with its class. -/
abbrev Claims := List (MethodRef × TypeRef)

namespace Image

/-- A class lists methods. None may be built in, or listed before. -/
def claimMethods (image : Image) (className : String) (this : TypeRef) :
    List Int32 → Claims → Except ImageFault (List MethodRef × Claims)
  | [], claims => .ok ([], claims)
  | index :: rest, claims => do
      let method ← (image.methodRef index).mapError .unresolved
      if method.index < builtinCount then
        .error (.claimedBuiltin className (image.methodName method))
      else if (claims.lookup method).isSome then
        .error (.claimedTwice (image.methodName method))
      else
        let (methods, claims) ← claimMethods image className this rest ((method, this) :: claims)
        .ok (method :: methods, claims)

/-- The base of a class: another class. -/
def baseRef (image : Image) (className : String) (this : TypeRef) :
    Option Int32 → Except ImageFault (Option TypeRef)
  | none => .ok none
  | some index => do
      let base ← (image.typeRef index).mapError .unresolved
      if image.isClass base && base != this then
        .ok (some base)
      else
        .error (.invalidBase className index)

def outlineType (image : Image) (this : TypeRef) (type : TypeDef) (claims : Claims) :
    Except ImageFault (TypeOutline × Claims) :=
  match type with
  | .ofClass c => do
      let base ← image.baseRef c.name this c.base
      let ownFields ← (image.typeRefs c.fields).mapError .unresolved
      let (methods, claims) ← image.claimMethods c.name this c.methods claims
      .ok (.ofClass { name := c.name, base, ownFields, methods }, claims)
  | .ofArray element => do
      let element ← (image.typeRef element).mapError .unresolved
      .ok (.ofArray element, claims)

def outlineTypes (image : Image) :
    Nat → List TypeDef → Claims → Except ImageFault (List TypeOutline × Claims)
  | _, [], claims => .ok ([], claims)
  | place, type :: rest, claims => do
      let (type, claims) ← image.outlineType ⟨place⟩ type claims
      let (types, claims) ← outlineTypes image (place + 1) rest claims
      .ok (type :: types, claims)

def outlineMethod (image : Image) (claims : Claims) (this : MethodRef) (method : MethodDef) :
    Except IndexFault MethodOutline := do
  let returns ← method.returns.mapM image.typeRef
  let params ← image.typeRefs method.params
  let locals ← image.typeRefs method.locals
  .ok { name := method.name, owner := claims.lookup this, returns, params, locals }

def outlineMethods (image : Image) (claims : Claims) :
    Nat → List MethodDef → Except IndexFault (List MethodOutline)
  | _, [] => .ok []
  | place, method :: rest => do
      let method ← image.outlineMethod claims ⟨place⟩ method
      let methods ← outlineMethods image claims (place + 1) rest
      .ok (method :: methods)

def outline (image : Image) : Except ImageFault Outline := do
  let (types, claims) ← image.outlineTypes primitiveCount image.types []
  let methods ← (image.outlineMethods claims builtinCount image.methods).mapError .unresolved
  .ok { types, methods }

end Image
end ObjectMachine
