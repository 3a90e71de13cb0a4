import ObjectMachine.Linking.Layout

/-!
# Code

Operands are linked instruction by instruction, method by method. String literals enter the
string table in the order in which they are met. An operand is checked for what its instruction
needs of it: a slot exists, a branch stays in the method, a type is a class or an array type, a
field belongs to the layout of its class.
-/

namespace ObjectMachine

structure CodeContext where
  image : Image
  types : Array TypeDescriptor
  method : MethodOutline
  length : Nat

namespace CodeContext

def slotCount (context : CodeContext) (opcode : Opcode) : Nat :=
  match opcode with
  | .ldarg | .starg => context.method.params.length
  | _ => context.method.locals.length

/-- Whether a type suits an opcode: arrays are made of array types, all else is of classes. -/
def suits (context : CodeContext) (opcode : Opcode) (type : TypeRef) : Bool :=
  match opcode with
  | .newarr => context.image.isArray type
  | _ => context.image.isClass type

def fields? (context : CodeContext) (type : TypeRef) : Option (List FieldSlot) :=
  match context.types[type.index]? with
  | some (.ofClass c) => some c.fields
  | _ => none

def linkField (context : CodeContext) (owner : Int32) (index : UInt32) :
    Except CodeFault Operand := do
  let type ← (context.image.typeRef owner).mapError .unresolved
  match context.fields? type with
  | none => .error .ownerNotClass
  | some fields =>
      match fields[index.toNat]? with
      | none => .error (.noField index.toNat)
      | some slot => .ok (.field { owner := type, index := index.toNat, slot })

def linkOperand (context : CodeContext) (ip : Nat) (insn : InstructionDef)
    (strings : StringTable) : Except CodeFault (Operand × StringTable) :=
  if !insn.fits then
    .error (.wrongOperand insn.opcode.operandKind insn.operand.kind)
  else
    match insn.operand with
    | .none =>
        if insn.opcode = .ldthis ∧ context.method.owner.isNone then .error .noReceiver
        else .ok (.none, strings)
    | .int value => .ok (.int value, strings)
    | .char value => .ok (.char value, strings)
    | .bool value => .ok (.bool value, strings)
    | .str text =>
        let (ref, strings) := strings.intern text
        .ok (.str ref, strings)
    | .slot index =>
        let count := context.slotCount insn.opcode
        if index.toNat < count then .ok (.slot index.toNat, strings)
        else .error (.noSlot index.toNat count)
    | .branch offset =>
        let target : Int := ip + 1 + offset.toInt
        if 0 ≤ target ∧ target < context.length then .ok (.branch offset.toInt, strings)
        else .error (.branchOutside target)
    | .type index => do
        let type ← (context.image.typeRef index).mapError .unresolved
        if context.suits insn.opcode type then .ok (.type type, strings)
        else .error (.unsuitableType index)
    | .method index => do
        let method ← (context.image.methodRef index).mapError .unresolved
        .ok (.method method, strings)
    | .field owner index => do
        let operand ← context.linkField owner index
        .ok (operand, strings)

def linkCode (context : CodeContext) :
    Nat → List InstructionDef → StringTable →
      Except ImageFault (List Instruction × StringTable)
  | _, [], strings => .ok ([], strings)
  | ip, insn :: rest, strings => do
      let (operand, strings) ← (context.linkOperand ip insn strings).mapError
        (.code insn.opcode context.method.name ip)
      let (code, strings) ← linkCode context (ip + 1) rest strings
      .ok ({ opcode := insn.opcode, operand } :: code, strings)

end CodeContext

def MethodOutline.descriptor (method : MethodOutline) (code : List Instruction) :
    MethodDescriptor where
  name := method.name
  owner := method.owner
  builtin := none
  returns := method.returns
  params := method.params
  locals := method.locals
  code := code.toArray

namespace Image

def linkMethods (image : Image) (types : Array TypeDescriptor) :
    List (MethodOutline × MethodDef) → StringTable →
      Except ImageFault (List MethodDescriptor × StringTable)
  | [], strings => .ok ([], strings)
  | (method, source) :: rest, strings => do
      let context : CodeContext := { image, types, method, length := source.code.length }
      let (code, strings) ← context.linkCode 0 source.code strings
      let (methods, strings) ← linkMethods image types rest strings
      .ok (method.descriptor code :: methods, strings)

/-- The method to start with: a declared one that takes nothing, returns nothing and belongs to
no class. -/
def entryRef (image : Image) (outline : Outline) : Except ImageFault MethodRef :=
  if image.main.toInt < 0 then
    .error .entryBuiltin
  else do
    let entry ← (image.methodRef image.main).mapError .unresolved
    match outline.methods[entry.index - builtinCount]? with
    | none => .error (.unresolved (.method image.main))
    | some method =>
        if !method.params.isEmpty || method.returns.isSome then
          .error (.entrySignature method.name)
        else if method.owner.isSome then
          .error (.entryReceiver method.name)
        else
          .ok entry

def link (image : Image) : Except ImageFault Program := do
  let outline ← image.outline
  let types ← outline.typeTable
  let (methods, strings) ← image.linkMethods types (outline.methods.zip image.methods) .empty
  let entry ← image.entryRef outline
  .ok {
    types
    methods := (Builtin.all.map Builtin.descriptor ++ methods).toArray
    entry
    strings }

end Image
end ObjectMachine
